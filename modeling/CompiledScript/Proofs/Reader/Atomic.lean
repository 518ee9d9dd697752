import CompiledScript.Proofs.Reader.Retained

/-!
# Failures leave the reader alone

A basic action that fails leaves the reader as it was, wherever the reader stood. The reason is the
same for all of them: whatever can fail comes before the reader is moved. `Atomic` is closed under
the two ways in which such actions are put together, a step that does not move before one that may
fail, and a step that may fail before one that does not.
-/

namespace CompiledScript

/-- The fault is one of the reader itself: the buffer ends too early or was released, or there are no
multiples to align to. -/
def Fault.IsOfReader (fault : Fault) : Prop :=
  fault.kind = .truncation ∨ fault.kind = .closed ∨ fault.kind = .zeroBoundary

namespace Reader

/-- A failure leaves the reader as it was, and the fault is one of the reader itself. -/
def Atomic {α : Type} (action : Action α) : Prop :=
  ∀ r fault r', action r = .error fault r' → r' = r ∧ fault.IsOfReader

/-- A success leaves the reader as it was. -/
def Still {α : Type} (action : Action α) : Prop :=
  ∀ r value r', action r = .ok value r' → r' = r

def Unfailing {α : Type} (action : Action α) : Prop :=
  ∀ r fault r', action r ≠ .error fault r'

/-- A reader that is closed makes the action fail. -/
def NeedsBuffer {α : Type} (action : Action α) : Prop :=
  ∀ r value r', action r = .ok value r' → r.contents ≠ none

/-! ## One action after another -/

section Sequence

variable {α β : Type} {action : Action α} {f : α → Action β}

theorem still_pure (value : α) : Still (pure value : Action α) := by
  intro r result r' h
  cases h
  rfl

theorem still_get : Still (get : Action Reader) := by
  intro r result r' h
  cases h
  rfl

theorem Still.bind (haction : Still action) (hf : ∀ value, Still (f value)) :
    Still (action >>= f) := by
  intro r result r' h
  obtain ⟨value, middle, hfirst, hsecond⟩ := bind_eq_ok.1 h
  exact (hf value _ _ _ hsecond).trans (haction _ _ _ hfirst)

theorem unfailing_pure (value : α) : Unfailing (pure value : Action α) :=
  fun _ _ _ h ↦ nomatch h

theorem unfailing_get : Unfailing (get : Action Reader) :=
  fun _ _ _ h ↦ nomatch h

theorem unfailing_modify (change : Reader → Reader) : Unfailing (modify change : Action Unit) :=
  fun _ _ _ h ↦ nomatch h

theorem Unfailing.bind (haction : Unfailing action) (hf : ∀ value, Unfailing (f value)) :
    Unfailing (action >>= f) := by
  intro r fault r' h
  rcases bind_eq_error.1 h with hfirst | ⟨value, middle, _, hsecond⟩
  · exact haction _ _ _ hfirst
  · exact hf value _ _ _ hsecond

theorem Unfailing.atomic (haction : Unfailing action) : Atomic action :=
  fun r fault r' h ↦ absurd h (haction r fault r')

theorem atomic_throw {fault : Fault} (hfault : fault.IsOfReader) :
    Atomic (throw fault : Action α) := by
  intro r found r' h
  cases h
  exact ⟨rfl, hfault⟩

theorem Atomic.ite {condition : Prop} [Decidable condition] {other : Action α}
    (haction : Atomic action) (hother : Atomic other) :
    Atomic (if condition then action else other) := by
  split <;> assumption

/-- What follows a first step may fail as long as that step has not moved the reader. -/
theorem Atomic.bind_of_still (haction : Atomic action) (hstill : Still action)
    (hf : ∀ value, Atomic (f value)) : Atomic (action >>= f) := by
  intro r fault r' h
  rcases bind_eq_error.1 h with hfirst | ⟨value, middle, hfirst, hsecond⟩
  · exact haction r fault r' hfirst
  · obtain rfl := hstill r value middle hfirst
    exact hf value _ fault r' hsecond

/-- What follows a step that has moved the reader may not fail. -/
theorem Atomic.bind_of_unfailing (haction : Atomic action) (hf : ∀ value, Unfailing (f value)) :
    Atomic (action >>= f) := by
  intro r fault r' h
  rcases bind_eq_error.1 h with hfirst | ⟨value, middle, _, hsecond⟩
  · exact haction r fault r' hfirst
  · exact absurd hsecond (hf value middle fault r')

theorem Atomic.map (haction : Atomic action) (g : α → β) :
    Atomic (action >>= fun value ↦ pure (g value)) :=
  haction.bind_of_unfailing fun value ↦ unfailing_pure (g value)

theorem atomic_get_bind {f : Reader → Action β} (hf : ∀ r, Atomic (f r)) : Atomic (get >>= f) :=
  unfailing_get.atomic.bind_of_still still_get hf

theorem NeedsBuffer.bind (haction : NeedsBuffer action) (f : α → Action β) :
    NeedsBuffer (action >>= f) := by
  intro r result r' h
  obtain ⟨value, middle, hfirst, _⟩ := bind_eq_ok.1 h
  exact haction r value middle hfirst

theorem needsBuffer_get_bind {f : Reader → Action β} (hf : ∀ r, NeedsBuffer (f r)) :
    NeedsBuffer (get >>= f) := by
  intro r result r' h
  obtain ⟨_, _, hget, hrest⟩ := bind_eq_ok.1 h
  cases hget
  exact hf _ _ _ _ hrest

/-- An action that neither moves nor fails halfway does not touch the reader at all. -/
theorem Atomic.stateOf_eq (haction : Atomic action) (hstill : Still action) (r : Reader) :
    stateOf (action r) = r := by
  cases hrun : action r with
  | ok value r' => exact hstill r value r' hrun
  | error fault r' => exact (haction r fault r' hrun).1

end Sequence

/-! ## Basic actions -/

section Actions

variable {α : Type}

theorem still_buffer : Still buffer :=
  fun _ _ _ h ↦ (buffer_eq_ok.1 h).2

theorem needsBuffer_buffer : NeedsBuffer buffer := by
  intro r data r' h hnone
  have hdata := (buffer_eq_ok.1 h).1
  rw [hnone] at hdata
  cases hdata

theorem atomic_buffer_bind {f : ByteArray → Action α} (hf : ∀ data, Atomic (f data)) :
    Atomic (buffer >>= f) := by
  refine Atomic.bind_of_still (fun r fault r' h ↦ ?_) still_buffer hf
  unfold buffer at h
  split at h
  · cases h
  · cases h
    exact ⟨rfl, .inr (.inl rfl)⟩

theorem atomic_length : Atomic length :=
  atomic_buffer_bind fun _ ↦ (unfailing_pure _).atomic

theorem still_length : Still length :=
  still_buffer.bind fun _ ↦ still_pure _

theorem needsBuffer_length : NeedsBuffer length :=
  needsBuffer_buffer.bind _

theorem atomic_seek (offset : Int) : Atomic (seek offset) :=
  atomic_length.bind_of_still still_length fun _ ↦
    (unfailing_modify _).atomic.ite (atomic_throw (.inl rfl))

theorem needsBuffer_seek (offset : Int) : NeedsBuffer (seek offset) :=
  needsBuffer_length.bind _

theorem atomic_skip (count : Int) : Atomic (skip count) :=
  atomic_get_bind fun _ ↦ atomic_seek _

theorem needsBuffer_skip (count : Int) : NeedsBuffer (skip count) :=
  needsBuffer_get_bind fun _ ↦ needsBuffer_seek _

theorem atomic_align (boundary : Int) : Atomic (align boundary) := by
  refine atomic_get_bind fun r ↦ ?_
  split
  · exact atomic_throw (.inr (.inr rfl))
  · exact (unfailing_pure 0).atomic.ite ((atomic_skip _).map _)

theorem steady_align (boundary : Int) : Steady (align boundary) := by
  refine steady_get.bind fun r ↦ ?_
  split
  · exact steady_throw _
  · exact (steady_pure 0).ite ((composed_skip _).map _).steady

/-- A closed reader stands at a multiple of every boundary to which it can be aligned. -/
theorem eq_zero_of_align_eq_ok {boundary count : Int} {r r' : Reader}
    (hclosed : r.contents = none) (h : align boundary r = .ok count r') : count = 0 ∧ r' = r := by
  obtain ⟨_, _, hget, hrest⟩ := bind_eq_ok.1 h
  cases hget
  cases hpadding : padding? r.position boundary with
  | none =>
    rw [hpadding] at hrest
    cases hrest
  | some padding =>
    rw [hpadding] at hrest
    dsimp only at hrest
    split at hrest
    · cases hrest
      exact ⟨rfl, rfl⟩
    · exact absurd hclosed ((needsBuffer_skip _).bind _ _ _ _ hrest)

theorem atomic_field (width : Nat) : Atomic (field width) :=
  atomic_buffer_bind fun _ ↦ atomic_get_bind fun _ ↦
    ((unfailing_modify _).bind fun _ ↦ unfailing_pure _).atomic.ite (atomic_throw (.inl rfl))

theorem needsBuffer_field (width : Nat) : NeedsBuffer (field width) :=
  needsBuffer_buffer.bind _

theorem atomic_bytes (count : Int) : Atomic (bytes count) :=
  atomic_buffer_bind fun _ ↦ atomic_get_bind fun _ ↦
    ((unfailing_modify _).bind fun _ ↦ unfailing_pure _).atomic.ite (atomic_throw (.inl rfl))

theorem needsBuffer_bytes (count : Int) : NeedsBuffer (bytes count) :=
  needsBuffer_buffer.bind _

theorem atomic_textAt (offset : Int) : Atomic (textAt offset) := by
  refine (atomic_throw (.inl rfl)).ite
    (atomic_buffer_bind fun data ↦ Atomic.ite ?_ (atomic_throw (.inl rfl)))
  split
  · exact (unfailing_pure _).atomic
  · exact atomic_throw (.inl rfl)

theorem still_textAt (offset : Int) : Still (textAt offset) := by
  intro r value r' h
  obtain ⟨_, _, _, _, _, _, rfl⟩ := textAt_eq_ok.1 h
  rfl

theorem needsBuffer_textAt (offset : Int) : NeedsBuffer (textAt offset) := by
  intro r value r' h hnone
  obtain ⟨data, _, hdata, _⟩ := textAt_eq_ok.1 h
  rw [hnone] at hdata
  cases hdata

theorem atomic_text : Atomic text :=
  atomic_get_bind fun _ ↦ (atomic_textAt _).bind_of_unfailing fun _ ↦
    (unfailing_modify _).bind fun _ ↦ unfailing_pure _

theorem needsBuffer_text : NeedsBuffer text :=
  needsBuffer_get_bind fun _ ↦ (needsBuffer_textAt _).bind _

/-- A text is read up to its zero byte, which stands in the buffer. -/
theorem steady_text : Steady text := by
  intro r value r' h
  obtain ⟨_, _, hget, hread⟩ := bind_eq_ok.1 h
  cases hget
  obtain ⟨⟨found, stop⟩, middle, htext, hrest⟩ := bind_eq_ok.1 hread
  obtain ⟨data, place, hdata, _, hfind, hfound, rfl⟩ := textAt_eq_ok.1 htext
  obtain ⟨_, _, hmove, hvalue⟩ := bind_eq_ok.1 hrest
  cases hmove
  cases hvalue
  have hbounds := Bytes.bounds_of_findFrom?_eq_some hfind
  obtain rfl : stop = (place : Int) + 1 := congrArg Prod.snd hfound
  refine ⟨rfl, rfl, .inr ⟨data, hdata, ?_, ?_⟩⟩
  · change 0 ≤ (place : Int) + 1
    omega
  · change (place : Int) + 1 ≤ data.size
    omega

end Actions

end Reader
end CompiledScript
