import Decaf.Scope
import Mathlib.Logic.Function.Basic

namespace Decaf

namespace Scoping

/-- What nested scopes can be asked to do. -/
inductive Request where
  | enter
  | exit
  | declare (symbol : Symbol)
  | resolve (name : String)
  | resolveLocal (name : String)
deriving DecidableEq

inductive Answer where
  | entered
  | exited (popped : Bool)
  | declared
  | refused (error : DuplicateError)
  | found (symbol : Option Symbol)
deriving DecidableEq

/-- A way to keep nested scopes. -/
structure Machine (σ : Type) where
  step : σ → Request → Answer × σ
  depth : σ → Nat

namespace Machine

variable {σ τ : Type}

def after (m : Machine σ) (s : σ) : List Request → σ
  | [] => s
  | q :: qs => m.after (m.step s q).2 qs

/-- The answers to a row of requests, each with the depth behind it. -/
def run (m : Machine σ) (s : σ) : List Request → List (Answer × Nat)
  | [] => []
  | q :: qs => ((m.step s q).1, m.depth (m.step s q).2) :: m.run (m.step s q).2 qs

/-- States of two machines that stay related give the same answers. -/
structure Simulates (m : Machine σ) (m' : Machine τ) (R : σ → τ → Prop) : Prop where
  depth : ∀ {s t}, R s t → m.depth s = m'.depth t
  answer : ∀ {s t}, R s t → ∀ q, (m.step s q).1 = (m'.step t q).1
  next : ∀ {s t}, R s t → ∀ q, R (m.step s q).2 (m'.step t q).2

variable {m : Machine σ} {m' : Machine τ} {R : σ → τ → Prop} {s : σ} {t : τ}

theorem Simulates.after (h : Simulates m m' R) (hst : R s t) (qs : List Request) :
    R (m.after s qs) (m'.after t qs) := by
  induction qs generalizing s t with
  | nil => exact hst
  | cons q qs ih => exact ih (h.next hst q)

theorem Simulates.run_eq (h : Simulates m m' R) (hst : R s t) (qs : List Request) :
    m.run s qs = m'.run t qs := by
  induction qs generalizing s t with
  | nil => rfl
  | cons q qs ih =>
    have hnext := h.next hst q
    rw [run, run, h.answer hst q, h.depth hnext, ih hnext]

end Machine

end Scoping

open Scoping

/-- A stack of maps that is never empty. -/
structure NameStack where
  top : String → Option Symbol
  below : List (String → Option Symbol)

namespace NameStack

def empty : NameStack := ⟨fun _ => none, []⟩

def height (s : NameStack) : Nat := s.below.length + 1

def step (s : NameStack) : Request → Answer × NameStack
  | .enter => (.entered, ⟨fun _ => none, s.top :: s.below⟩)
  | .exit =>
    match s.below with
    | [] => (.exited false, s)
    | map :: below => (.exited true, ⟨map, below⟩)
  | .declare symbol =>
    match s.top symbol.name with
    | none => (.declared, ⟨Function.update s.top symbol.name (some symbol), s.below⟩)
    | some _ => (.refused ⟨symbol⟩, s)
  | .resolve name => (.found ((s.top :: s.below).findSome? fun map => map name), s)
  | .resolveLocal name => (.found (s.top name), s)

def machine : Machine NameStack := ⟨step, height⟩

theorem step_declare_free {s : NameStack} {symbol : Symbol} (h : s.top symbol.name = none) :
    s.step (.declare symbol) =
      (.declared, ⟨Function.update s.top symbol.name (some symbol), s.below⟩) := by
  simp only [step, h]

theorem step_declare_taken {s : NameStack} {symbol first : Symbol}
    (h : s.top symbol.name = some first) : s.step (.declare symbol) = (.refused ⟨symbol⟩, s) := by
  simp only [step, h]

theorem step_declare_refused {s : NameStack} {symbol : Symbol} {e : DuplicateError}
    (h : (s.step (.declare symbol)).1 = .refused e) :
    e = ⟨symbol⟩ ∧ (s.step (.declare symbol)).2 = s := by
  cases htop : s.top symbol.name with
  | none =>
    rw [step_declare_free htop] at h
    cases h
  | some first =>
    rw [step_declare_taken htop] at h ⊢
    cases h
    exact ⟨rfl, rfl⟩

end NameStack

namespace ScopeTable

def step (t : ScopeTable) : Request → Answer × ScopeTable
  | .enter => (.entered, t.enter)
  | .exit =>
    match t.exit? with
    | some outer => (.exited true, outer)
    | none => (.exited false, t)
  | .declare symbol =>
    match t.declare symbol with
    | .ok next => (.declared, next)
    | .error e => (.refused e, t)
  | .resolve name => (.found (t.resolve name), t)
  | .resolveLocal name => (.found (t.resolveLocal name), t)

def machine : Machine ScopeTable := ⟨step, depth⟩

structure Shows (t : ScopeTable) (s : NameStack) : Prop where
  top : t.innermost.find = s.top
  below : t.outer.map Frame.find = s.below
  depth : t.depth = t.outer.length + 1

theorem find_append_singleton {frame : Frame} {symbol : Symbol}
    (h : frame.find symbol.name = none) :
    Frame.find (frame ++ [symbol]) = Function.update frame.find symbol.name (some symbol) := by
  funext name
  rw [Frame.find, List.find?_append]
  by_cases hname : name = symbol.name
  · subst hname
    have hnone : frame.find? (fun s => s.name == symbol.name) = none := h
    rw [Function.update_self, hnone]
    simp
  · rw [Function.update_of_ne hname]
    have hne : (symbol.name == name) = false := by simpa using Ne.symm hname
    simp [Frame.find, hne]

theorem Shows.resolve_eq {t : ScopeTable} {s : NameStack} (h : Shows t s) (name : String) :
    t.resolve name = (s.top :: s.below).findSome? fun map => map name := by
  rw [← h.top, ← h.below, ← List.map_cons, List.findSome?_map]
  rfl

theorem shows_step {t : ScopeTable} {s : NameStack} (h : Shows t s) (q : Request) :
    (t.step q).1 = (s.step q).1 ∧ Shows (t.step q).2 (s.step q).2 := by
  cases q with
  | enter =>
    refine ⟨rfl, rfl, ?_, ?_⟩
    · exact congrArg₂ List.cons h.top h.below
    · simp [step, ScopeTable.enter, h.depth]
  | exit =>
    obtain ⟨top, below⟩ := s
    obtain ⟨innermost, outer, depth⟩ := t
    obtain ⟨htop, hbelow, hdepth⟩ := h
    dsimp only at htop hbelow hdepth
    subst hbelow
    cases outer with
    | nil => exact ⟨rfl, htop, rfl, hdepth⟩
    | cons frame outer =>
      refine ⟨rfl, rfl, rfl, ?_⟩
      simp [step, exit?, hdepth]
  | declare symbol =>
    cases htop : s.top symbol.name with
    | none =>
      have hfree : t.innermost.find symbol.name = none := h.top ▸ htop
      have hstep : t.step (.declare symbol) =
          (.declared, { t with innermost := t.innermost ++ [symbol] }) := by
        simp only [step, declare, hfree]
      rw [NameStack.step_declare_free htop, hstep]
      refine ⟨rfl, ?_, h.below, h.depth⟩
      rw [find_append_singleton hfree, h.top]
    | some first =>
      have htaken : t.innermost.find symbol.name = some first := h.top ▸ htop
      have hstep : t.step (.declare symbol) = (.refused ⟨symbol⟩, t) := by
        simp only [step, declare, htaken]
      rw [NameStack.step_declare_taken htop, hstep]
      exact ⟨rfl, h⟩
  | resolve name => exact ⟨congrArg Answer.found (h.resolve_eq name), h⟩
  | resolveLocal name => exact ⟨congrArg Answer.found (congrFun h.top name), h⟩

theorem shows_root : Shows root .empty := ⟨rfl, rfl, rfl⟩

theorem machine_simulates : machine.Simulates NameStack.machine Shows where
  depth h := by
    change _ = _ + 1
    rw [← h.below, List.length_map]
    exact h.depth
  answer h q := (shows_step h q).1
  next h q := (shows_step h q).2

end ScopeTable

structure Interner where
  Pool : Type
  Key : Type
  [decEq : DecidableEq Key]
  empty : Pool
  /-- The key of a name, which is put into the pool if it is new. -/
  intern : Pool → String → Key × Pool
  /-- The key of a name that is in the pool. -/
  get : Pool → String → Option Key

namespace Interner

attribute [instance] decEq

/-- Names keep their keys, no two names share one, and exactly the names that were put into the
pool have one. -/
structure Lawful (i : Interner) : Prop where
  get_empty : ∀ name, i.get i.empty name = none
  get_intern_self : ∀ pool name, i.get (i.intern pool name).2 name = some (i.intern pool name).1
  get_intern_of_ne : ∀ pool name other, other ≠ name →
    i.get (i.intern pool name).2 other = i.get pool other
  intern_known : ∀ pool name key, i.get pool name = some key → (i.intern pool name).1 = key
  injective : ∀ pool name other key, i.get pool name = some key → i.get pool other = some key →
    name = other

/-- Symbols by key, with the scopes around them. -/
inductive Chain (κ : Type) where
  | root (symbols : κ → Option Symbol)
  | nested (symbols : κ → Option Symbol) (parent : Chain κ)

namespace Chain

variable {κ : Type}

def symbols : Chain κ → κ → Option Symbol
  | root symbols => symbols
  | nested symbols _ => symbols

def insert [DecidableEq κ] (key : κ) (symbol : Symbol) : Chain κ → Chain κ
  | root symbols => root (Function.update symbols key (some symbol))
  | nested symbols parent => nested (Function.update symbols key (some symbol)) parent

def lookup (key : κ) : Chain κ → Option Symbol
  | root symbols => symbols key
  | nested symbols parent =>
    match symbols key with
    | some symbol => some symbol
    | none => parent.lookup key

end Chain

/-- A table over one pool of names for all its scopes. -/
structure Table (i : Interner) where
  pool : i.Pool
  current : Chain i.Key
  depth : Nat

variable {i : Interner}

namespace Table

def new (i : Interner) : Table i := ⟨i.empty, .root fun _ => none, 1⟩

def step (t : Table i) : Request → Answer × Table i
  | .enter => (.entered, ⟨t.pool, .nested (fun _ => none) t.current, t.depth + 1⟩)
  | .exit =>
    match t.current with
    | .root _ => (.exited false, t)
    | .nested _ parent => (.exited true, ⟨t.pool, parent, t.depth - 1⟩)
  | .declare symbol =>
    match i.intern t.pool symbol.name with
    | (key, pool) =>
      if (t.current.symbols key).isSome then (.refused ⟨symbol⟩, { t with pool })
      else (.declared, ⟨pool, t.current.insert key symbol, t.depth⟩)
  | .resolve name => (.found ((i.get t.pool name).bind fun key => t.current.lookup key), t)
  | .resolveLocal name => (.found ((i.get t.pool name).bind t.current.symbols), t)

def machine (i : Interner) : Machine (Table i) := ⟨step, depth⟩

end Table

/-- Symbols by key show a map by name. A symbol is kept under the key of its own name. -/
structure Shows (pool : i.Pool) (symbols : i.Key → Option Symbol) (map : String → Option Symbol) :
    Prop where
  find : ∀ name, (i.get pool name).bind symbols = map name
  known : ∀ key symbol, symbols key = some symbol → i.get pool symbol.name = some key

namespace Shows

variable {pool : i.Pool} {symbols : i.Key → Option Symbol} {map : String → Option Symbol}

theorem nothing (pool : i.Pool) : Shows pool (fun _ => none) fun _ => none :=
  ⟨fun name => by cases i.get pool name <;> rfl, nofun⟩

theorem symbols_intern (hi : i.Lawful) (h : Shows pool symbols map) (name : String) :
    symbols (i.intern pool name).1 = map name := by
  cases hget : i.get pool name with
  | some key => rw [hi.intern_known pool name key hget, ← h.find, hget, Option.bind_some]
  | none =>
    have hnone : map name = none := by rw [← h.find, hget, Option.bind_none]
    rw [hnone]
    -- A symbol under a key that is new would have had this key before.
    by_contra hsome
    obtain ⟨symbol, hsymbol⟩ := Option.ne_none_iff_exists'.mp hsome
    have hold := h.known _ symbol hsymbol
    have hne : symbol.name ≠ name := by
      intro hname
      rw [hname, hget] at hold
      cases hold
    have hnew : i.get (i.intern pool name).2 symbol.name = some (i.intern pool name).1 := by
      rw [hi.get_intern_of_ne pool name symbol.name hne, hold]
    exact hne (hi.injective _ _ _ _ hnew (hi.get_intern_self pool name))

theorem intern (hi : i.Lawful) (h : Shows pool symbols map) (name : String) :
    Shows (i.intern pool name).2 symbols map where
  find other := by
    by_cases hother : other = name
    · rw [hother, hi.get_intern_self, Option.bind_some, h.symbols_intern hi]
    · rw [hi.get_intern_of_ne pool name other hother, h.find]
  known key symbol hsymbol := by
    have hold := h.known key symbol hsymbol
    by_cases hname : symbol.name = name
    · rw [hname] at hold ⊢
      rw [hi.get_intern_self, hi.intern_known pool name key hold]
    · rw [hi.get_intern_of_ne pool name _ hname, hold]

theorem insert (hi : i.Lawful) (h : Shows pool symbols map) (symbol : Symbol) :
    Shows (i.intern pool symbol.name).2
      (Function.update symbols (i.intern pool symbol.name).1 (some symbol))
      (Function.update map symbol.name (some symbol)) where
  find other := by
    by_cases hother : other = symbol.name
    · rw [hother, hi.get_intern_self, Option.bind_some, Function.update_self, Function.update_self]
    · have hfind := (h.intern hi symbol.name).find other
      rw [Function.update_of_ne hother, ← hfind]
      cases hget : i.get (i.intern pool symbol.name).2 other with
      | none => rfl
      | some key =>
        have hkey : key ≠ (i.intern pool symbol.name).1 := by
          intro hkey
          rw [hkey] at hget
          exact hother (hi.injective _ _ _ _ hget (hi.get_intern_self pool symbol.name))
        rw [Option.bind_some, Option.bind_some, Function.update_of_ne hkey]
  known key other hfound := by
    by_cases hkey : key = (i.intern pool symbol.name).1
    · rw [hkey, Function.update_self] at hfound
      cases hfound
      rw [hkey, hi.get_intern_self]
    · rw [Function.update_of_ne hkey] at hfound
      exact (h.intern hi symbol.name).known key other hfound

end Shows

/-- The scopes of a chain show the maps of a stack. -/
inductive ShowsAll (pool : i.Pool) : Chain i.Key → NameStack → Prop
  | root {symbols map} : Shows pool symbols map → ShowsAll pool (.root symbols) ⟨map, []⟩
  | nested {symbols map parent next below} : Shows pool symbols map →
      ShowsAll pool parent ⟨next, below⟩ →
      ShowsAll pool (.nested symbols parent) ⟨map, next :: below⟩

namespace ShowsAll

variable {pool : i.Pool} {chain : Chain i.Key} {s : NameStack}

theorem top (h : ShowsAll pool chain s) : Shows pool chain.symbols s.top := by
  cases h with
  | root h => exact h
  | nested h _ => exact h

theorem intern (hi : i.Lawful) (h : ShowsAll pool chain s) (name : String) :
    ShowsAll (i.intern pool name).2 chain s := by
  induction h with
  | root h => exact .root (h.intern hi name)
  | nested h _ ih => exact .nested (h.intern hi name) ih

theorem insert (hi : i.Lawful) (h : ShowsAll pool chain s) (symbol : Symbol) :
    ShowsAll (i.intern pool symbol.name).2 (chain.insert (i.intern pool symbol.name).1 symbol)
      ⟨Function.update s.top symbol.name (some symbol), s.below⟩ := by
  cases h with
  | root h => exact .root (h.insert hi symbol)
  | nested h hparent => exact .nested (h.insert hi symbol) (hparent.intern hi symbol.name)

theorem lookup (h : ShowsAll pool chain s) (name : String) :
    ((i.get pool name).bind fun key => chain.lookup key) =
      (s.top :: s.below).findSome? fun map => map name := by
  induction h with
  | @root symbols map h =>
    have hfind := h.find name
    dsimp only
    rw [List.findSome?_cons, ← hfind]
    cases i.get pool name with
    | none => rfl
    | some key => cases hkey : symbols key <;> simp [Chain.lookup, hkey]
  | @nested symbols map parent next below h _ ih =>
    have hfind := h.find name
    dsimp only at ih ⊢
    rw [List.findSome?_cons, ← ih, ← hfind]
    cases i.get pool name with
    | none => rfl
    | some key => cases hkey : symbols key <;> simp [Chain.lookup, hkey]

end ShowsAll

namespace Table

structure Shows (t : Table i) (s : NameStack) : Prop where
  scopes : ShowsAll t.pool t.current s
  depth : t.depth = s.height

theorem shows_step (hi : i.Lawful) {t : Table i} {s : NameStack} (h : Shows t s) (q : Request) :
    (t.step q).1 = (s.step q).1 ∧ Shows (t.step q).2 (s.step q).2 := by
  obtain ⟨pool, chain, depth⟩ := t
  obtain ⟨hscopes, hdepth⟩ := h
  dsimp only at hscopes hdepth
  cases q with
  | enter => exact ⟨rfl, .nested (.nothing pool) hscopes, congrArg (· + 1) hdepth⟩
  | exit =>
    cases hscopes with
    | root h => exact ⟨rfl, .root h, hdepth⟩
    | nested _ hparent => exact ⟨rfl, hparent, congrArg (· - 1) hdepth⟩
  | declare symbol =>
    have hkey := hscopes.top.symbols_intern hi symbol.name
    cases htop : s.top symbol.name with
    | none =>
      have hfree : (chain.symbols (i.intern pool symbol.name).1).isSome = false := by
        rw [hkey, htop]
        rfl
      rw [NameStack.step_declare_free htop]
      simp only [step, hfree]
      exact ⟨rfl, hscopes.insert hi symbol, hdepth⟩
    | some first =>
      have htaken : (chain.symbols (i.intern pool symbol.name).1).isSome = true := by
        rw [hkey, htop]
        rfl
      rw [NameStack.step_declare_taken htop]
      simp only [step, htaken]
      exact ⟨rfl, hscopes.intern hi symbol.name, hdepth⟩
  | resolve name => exact ⟨congrArg Answer.found (hscopes.lookup name), hscopes, hdepth⟩
  | resolveLocal name =>
    exact ⟨congrArg Answer.found (hscopes.top.find name), hscopes, hdepth⟩

theorem shows_new (i : Interner) : Shows (new i) .empty := ⟨.root (.nothing i.empty), rfl⟩

theorem machine_simulates (hi : i.Lawful) : (machine i).Simulates NameStack.machine Shows where
  depth h := h.depth
  answer h q := (shows_step hi h q).1
  next h q := (shows_step hi h q).2

end Table

/-- Names in the order in which they came; the key of a name is its place. -/
def listed : Interner where
  Pool := List String
  Key := Nat
  empty := []
  intern pool name :=
    match pool.idxOf? name with
    | some key => (key, pool)
    | none => (pool.length, pool ++ [name])
  get pool name := pool.idxOf? name

theorem listed_intern_known {pool : List String} {name : String} {key : Nat}
    (h : pool.idxOf? name = some key) : listed.intern pool name = (key, pool) := by
  simp only [listed, h]

theorem listed_intern_new {pool : List String} {name : String} (h : pool.idxOf? name = none) :
    listed.intern pool name = (pool.length, pool ++ [name]) := by
  simp only [listed, h]

theorem idxOf?_append_singleton (pool : List String) (name other : String) :
    (pool ++ [name]).idxOf? other =
      (pool.idxOf? other).or (if name = other then some pool.length else none) := by
  unfold List.idxOf?
  rw [List.findIdx?_append]
  by_cases h : name = other
  · simp [h]
  · simp [h]

theorem listed_lawful : listed.Lawful where
  get_empty name := rfl
  get_intern_self pool name := by
    cases h : List.idxOf? name pool with
    | some key =>
      rw [listed_intern_known h]
      exact h
    | none =>
      rw [listed_intern_new h]
      refine (idxOf?_append_singleton pool name name).trans ?_
      rw [h, Option.none_or, if_pos rfl]
      rfl
  get_intern_of_ne pool name other hne := by
    cases h : List.idxOf? name pool with
    | some key => rw [listed_intern_known h]
    | none =>
      rw [listed_intern_new h]
      refine (idxOf?_append_singleton pool name other).trans ?_
      rw [if_neg (Ne.symm hne), Option.or_none]
      rfl
  intern_known pool name key h := by rw [listed_intern_known h]
  injective pool name other key h h' := by
    obtain ⟨_, hname, -⟩ := List.idxOf?_eq_some_iff.mp h
    obtain ⟨_, hother, -⟩ := List.idxOf?_eq_some_iff.mp h'
    rw [← hname, hother]

end Interner

/-- The machine does with every row of requests what the stack of maps does, has as many scopes as
the stack has maps, and a refused declaration has no effect on what comes behind it. -/
structure Scoping.Machine.Refines {σ : Type} (m : Machine σ) (start : σ) : Prop where
  run_eq : ∀ qs, m.run start qs = NameStack.machine.run .empty qs
  depth_eq : ∀ qs, m.depth (m.after start qs) = (NameStack.machine.after .empty qs).height
  depth_pos : ∀ qs, 1 ≤ m.depth (m.after start qs)
  refused : ∀ qs symbol e, (m.step (m.after start qs) (.declare symbol)).1 = .refused e →
    e = ⟨symbol⟩ ∧
      ∀ more, m.run (m.step (m.after start qs) (.declare symbol)).2 more =
        m.run (m.after start qs) more

theorem Scoping.Machine.Simulates.refines {σ : Type} {m : Machine σ} {R : σ → NameStack → Prop}
    {start : σ} (h : m.Simulates NameStack.machine R) (hstart : R start .empty) :
    m.Refines start := by
  have hdepth : ∀ qs, m.depth (m.after start qs) = (NameStack.machine.after .empty qs).height :=
    fun qs => h.depth (h.after hstart qs)
  refine ⟨h.run_eq hstart, hdepth, ?_, ?_⟩
  · intro qs
    rw [hdepth]
    exact Nat.le_add_left 1 _
  · intro qs symbol e hrefused
    have hreached := h.after hstart qs
    rw [h.answer hreached] at hrefused
    obtain ⟨he, hsame⟩ := NameStack.step_declare_refused hrefused
    refine ⟨he, ?_⟩
    intro more
    have hnext := h.next hreached (.declare symbol)
    rw [h.run_eq hreached more, h.run_eq hnext more]
    exact congrArg (fun s => NameStack.machine.run s more) hsame

/-- Scope tables are stacks of maps from names to symbols, whether they look for names themselves or
for keys of them, and their depth is the number of their scopes. -/
theorem scopes_refine_nameStack (i : Interner) (hi : i.Lawful) :
    ScopeTable.machine.Refines .root ∧
    (∀ qs, (ScopeTable.machine.after .root qs).depth =
      ((ScopeTable.machine.after .root qs).innermost ::
        (ScopeTable.machine.after .root qs).outer).length) ∧
    (Interner.Table.machine i).Refines (.new i) := by
  refine ⟨ScopeTable.machine_simulates.refines ScopeTable.shows_root, ?_,
    (Interner.Table.machine_simulates hi).refines (Interner.Table.shows_new i)⟩
  intro qs
  exact (ScopeTable.machine_simulates.after ScopeTable.shows_root qs).depth

theorem scopes_refine_nameStack_listed :
    ScopeTable.machine.Refines .root ∧ Interner.listed.Lawful ∧
    (Interner.Table.machine .listed).run (.new .listed)
        [.declare ⟨"g", .field, .int, .zero⟩, .enter, .declare ⟨"x", .localVar, .boolean, .zero⟩,
          .declare ⟨"x", .localVar, .int, .zero⟩, .resolve "x", .exit, .exit, .resolve "x",
          .enter, .resolveLocal "g", .declare ⟨"x", .localVar, .int, .zero⟩, .resolve "x",
          .resolve "g"] =
      [(.declared, 1), (.entered, 2), (.declared, 2),
        (.refused ⟨⟨"x", .localVar, .int, .zero⟩⟩, 2),
        (.found (some ⟨"x", .localVar, .boolean, .zero⟩), 2), (.exited true, 1),
        (.exited false, 1), (.found none, 1), (.entered, 2), (.found none, 2), (.declared, 2),
        (.found (some ⟨"x", .localVar, .int, .zero⟩), 2),
        (.found (some ⟨"g", .field, .int, .zero⟩), 2)] := by
  obtain ⟨htable, -, hkeyed⟩ := scopes_refine_nameStack .listed Interner.listed_lawful
  refine ⟨htable, Interner.listed_lawful, ?_⟩
  rw [hkeyed.run_eq]
  decide

end Decaf
