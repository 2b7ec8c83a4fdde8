import Mathlib.Algebra.Order.Ring.Nat

/-! # Routing parameters

Model of `routing_parameter.rs` in `gax-internal`. A `str` is the list of its characters; positions
in it are in bytes, as in the source, and a slice that does not begin and end between two
characters panics. -/

namespace GoogleCloudRust.RoutingParameter

/-- Where the source panics. -/
inductive Panic
  | charBoundary
deriving DecidableEq, Repr

/-- `str::len`. -/
def len (s : List Char) : ℕ := (s.map Char.utf8Size).sum

/-- `str::find` of a character. -/
def find (c : Char) : List Char → Option ℕ
  | [] => none
  | d :: s => if d = c then some 0 else (find c s).map (· + d.utf8Size)

/-- `&s[start..]`. -/
def sliceFrom : List Char → ℕ → Except Panic (List Char)
  | s, 0 => .ok s
  | [], _ + 1 => .error .charBoundary
  | c :: s, start =>
      if c.utf8Size ≤ start then sliceFrom s (start - c.utf8Size) else .error .charBoundary

/-- `&s[..stop]`. -/
def sliceTo : List Char → ℕ → Except Panic (List Char)
  | _, 0 => .ok []
  | [], _ + 1 => .error .charBoundary
  | c :: s, stop =>
      if c.utf8Size ≤ stop then (sliceTo s (stop - c.utf8Size)).map (c :: ·)
      else .error .charBoundary

/-- `&s[start..stop]`. -/
def slice (s : List Char) (start stop : ℕ) : Except Panic (List Char) :=
  if start ≤ stop then do sliceTo (← sliceFrom s start) (stop - start)
  else .error .charBoundary

inductive Segment
  | literal (lit : List Char)
  | singleWildcard
  | multiWildcard
  | trailingMultiWildcard
deriving DecidableEq, Repr

def Segment.matchSize (haystack : List Char) : Segment → Option ℕ
  | .literal lit => if lit.isPrefixOf haystack then some (len lit) else none
  | .singleWildcard =>
      let i := (find '/' haystack).getD (len haystack)
      if i ≠ 0 then some i else none
  | .multiWildcard => some (len haystack)
  | .trailingMultiWildcard =>
      if haystack.isEmpty then some 0
      else if ['/'].isPrefixOf haystack ∨ [':'].isPrefixOf haystack then some (len haystack)
      else none

/-- One of the three loops of `value`: what remains, and the position after the last needle. -/
def consume : List Segment → List Char → ℕ → Except Panic (Option (List Char × ℕ))
  | [], remains, position => .ok (some (remains, position))
  | needle :: needles, remains, position =>
      match needle.matchSize remains with
      | none => .ok none
      | some count => do consume needles (← sliceFrom remains count) (position + count)

def value (haystack : Option (List Char)) (front matching back : List Segment) :
    Except Panic (Option (List Char)) :=
  match haystack with
  | none => .ok none
  | some haystack => do
      let some (remains, start) ← consume front haystack 0 | return none
      let some (remains, stop) ← consume matching remains start | return none
      let some (remains, _) ← consume back remains stop | return none
      if ¬remains.isEmpty ∨ start = stop then return none
      return some (← slice haystack start stop)

/-- In `path_parameter.rs`. -/
def tryMatchImpl (value : Option (List Char)) (template : List Segment) :
    Except Panic (Option (List Char)) :=
  RoutingParameter.value value [] template []

end GoogleCloudRust.RoutingParameter
