import CompiledScript.Proofs.Outcomes
import CompiledScript.Proofs.Reader.Composed

/-!
# What an action leaves alone

Every action that is made of basic ones retains the buffer and the byte order of its reader: it only
moves.
-/

namespace CompiledScript

namespace Reader

/-- What a reader reads, wherever it stands. -/
def source (r : Reader) : Option ByteArray × ByteOrder :=
  (r.contents, r.order)

theorem moved_eq_of_source {r r' : Reader} (h : r'.source = r.source) (position : Int) :
    { r' with position := position } = { r with position := position } := by
  obtain ⟨hcontents, horder⟩ := Prod.mk.inj h
  rw [hcontents, horder]

theorem retains_buffer : Retains source buffer := by
  intro r
  unfold buffer
  split <;> rfl

theorem retains_seek (offset : Int) : Retains source (seek offset) :=
  (retains_buffer.bind fun _ ↦ retains_pure _).bind fun _ ↦
    (retains_modify fun _ ↦ by rfl).ite (retains_throw _)

theorem retains_unsigned (width : Nat) : Retains source (unsigned width) := by
  have hfield : Retains source (field width) :=
    retains_buffer.bind fun _ ↦ retains_get.bind fun _ ↦
      ((retains_modify fun _ ↦ by rfl).bind fun _ ↦ retains_pure _).ite (retains_throw _)
  exact hfield.bind fun _ ↦ retains_get.bind fun _ ↦ retains_pure _

theorem retains_textAt (offset : Int) : Retains source (textAt offset) := by
  refine (retains_throw _).ite (retains_buffer.bind fun _ ↦ Retains.ite ?_ (retains_throw _))
  split
  · exact retains_pure _
  · exact retains_throw _

theorem Composed.retains {α : Type} {action : Action α} (h : Composed action) :
    Retains source action := by
  induction h with
  | pure value => exact retains_pure value
  | bind _ _ haction hf => exact haction.bind hf
  | inspect _ _ hf => exact retains_get.bind hf
  | seek offset => exact retains_seek offset
  | unsigned width => exact retains_unsigned width
  | textAt offset => exact retains_textAt offset

end Reader

end CompiledScript
