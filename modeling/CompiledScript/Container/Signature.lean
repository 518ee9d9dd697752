import CompiledScript.Bytes.Window

/-!
# Finding signatures

The scan for a signature goes through the data once, with a count of the bytes of the signature
that have matched. A byte that does not match ends the attempt and is not tried as the start of
another one, so an occurrence that begins inside a failed attempt, or right at the byte that ended
it, is passed over.
-/

namespace CompiledScript.Container

/-- The number of leading bytes of the signature, from `matched` on, that the data has at `start`. -/
def matchLength (data signature : ByteArray) (start matched : Nat) : Nat :=
  if h : matched < signature.size ∧ start + matched < data.size then
    have := h.1
    have := h.2
    if data[start + matched] = signature[matched] then matchLength data signature start (matched + 1)
    else matched
  else matched
  termination_by signature.size - matched

theorem le_matchLength (data signature : ByteArray) (start matched : Nat) :
    matched ≤ matchLength data signature start matched := by
  fun_induction matchLength data signature start matched <;> omega

set_option linter.unusedVariables false in
/-- The offsets, from `start` on, at which the scan finds the signature whose first byte is `first`.
An attempt that the end of the data cuts short is the last one. -/
def occurrencesFrom (data signature : ByteArray) (first : UInt8) (start : Nat) : List Nat :=
  match h : Bytes.findFrom? data first start with
  | none => []
  | some offset =>
    let matched := matchLength data signature offset 1
    if matched = signature.size then
      offset :: occurrencesFrom data signature first (offset + matched)
    else if data.size ≤ offset + matched then []
    else occurrencesFrom data signature first (offset + matched + 1)
  termination_by data.size - start
  decreasing_by
    all_goals
      have hoffset := Bytes.bounds_of_findFrom?_eq_some h
      have hmatched := le_matchLength data signature offset 1
      omega

/-- The offsets at which the scan finds a signature. An empty signature is found nowhere. -/
def occurrences (data signature : ByteArray) : List Nat :=
  match signature[0]? with
  | none => []
  | some first => occurrencesFrom data signature first 0

end CompiledScript.Container
