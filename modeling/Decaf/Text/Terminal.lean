namespace Decaf.Terminal

inductive Phase where
  | ground
  | escape
  | escapeTail
  | control
  | controlParameters
  | controlTail
  | controlRest
  | device
  | deviceParameters
  | deviceTail
  | deviceBody
  | deviceRest
  | message
  | title
deriving DecidableEq

namespace Phase

def isString : Phase → Bool
  | .device | .deviceParameters | .deviceTail | .deviceBody | .deviceRest => true
  | .message | .title => true
  | _ => false

def holdsTerminator (c : Char) : Bool :=
  let n := c.toNat
  n % 64 = 0x1c || (0x800 ≤ n && n / 64 % 64 = 0x1c) || (0x10000 ≤ n && n / 4096 % 64 = 0x1c)

def afterPrintable (phase : Phase) (n : Nat) : Phase :=
  match phase with
  | .ground => .ground
  | .escape =>
    if n < 0x30 then .escapeTail
    else
      match n with
      | 0x50 => .device
      | 0x5b => .control
      | 0x5d => .title
      | 0x58 | 0x5e | 0x5f => .message
      | _ => .ground
  | .escapeTail => if n < 0x30 then .escapeTail else .ground
  | .control =>
    if n < 0x30 then .controlTail else if n < 0x40 then .controlParameters else .ground
  | .controlParameters =>
    if n < 0x30 then .controlTail
    else if n < 0x3c then .controlParameters
    else if n < 0x40 then .controlRest
    else .ground
  | .controlTail => if n < 0x30 then .controlTail else if n < 0x40 then .controlRest else .ground
  | .controlRest => if n < 0x40 then .controlRest else .ground
  | .device =>
    if n < 0x30 then .deviceTail else if n < 0x40 then .deviceParameters else .deviceBody
  | .deviceParameters =>
    if n < 0x30 then .deviceTail
    else if n < 0x3c then .deviceParameters
    else if n < 0x40 then .deviceRest
    else .deviceBody
  | .deviceTail => if n < 0x30 then .deviceTail else if n < 0x40 then .deviceRest else .deviceBody
  | .deviceBody => .deviceBody
  | .deviceRest => .deviceRest
  | .message => .message
  | .title => .title

def next (phase : Phase) (c : Char) : Phase :=
  match c.toNat with
  | 0x18 | 0x1a => .ground
  | 0x1b => .escape
  | 0x07 => if phase = .title then .ground else phase
  | n =>
    if n < 0x20 || n = 0x7f then phase
    else if n < 0x7f then phase.afterPrintable n
    else
      match phase with
      | .deviceBody | .deviceRest | .message => if holdsTerminator c then .ground else phase
      | _ => phase

/-- Whether a character is shown: outside of sequences all but controls, and the blanks that lay
out text in every sequence that is not a string. -/
def shows (phase : Phase) (c : Char) : Bool :=
  match c with
  | '\t' | '\n' | '\x0c' | '\r' => !phase.isString
  | _ => phase = .ground && 0x20 ≤ c.toNat && c.toNat ≠ 0x7f

end Phase

/-- The characters that are shown. A run of them, once begun, lasts up to the next control
character, which then goes on from the phase that the run was met in. -/
def visible (running : Bool) (phase : Phase) : List Char → List Char
  | [] => []
  | c :: cs =>
    if (if running then Phase.ground else phase).shows c then
      c :: visible true (if c.toNat < 0x80 then phase else .ground) cs
    else visible false (phase.next c) cs

def strip (text : String) : String := String.ofList (visible false .ground text.toList)

end Decaf.Terminal
