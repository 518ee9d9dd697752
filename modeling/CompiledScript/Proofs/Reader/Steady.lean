import CompiledScript.Reader.Forward

/-!
# Where a reader can end up

A successful action that only moves, reads fields and looks up texts keeps the buffer and the byte
order, and leaves the reader where it was or at an offset of the buffer. Such actions are *steady*.
Other than forward actions they may move back, so every part of a decoder is steady, the moves from
one table to another included.
-/

namespace CompiledScript.Reader

/-- The position is an offset of the buffer, of which the end is one. -/
def Inside (r : Reader) : Prop :=
  ∃ data : ByteArray, r.contents = some data ∧ 0 ≤ r.position ∧ r.position ≤ data.size

/-- The same buffer, read in the same order, at the same position or at an offset of the buffer. -/
structure Follows (r r' : Reader) : Prop where
  contents : r'.contents = r.contents
  order : r'.order = r.order
  position : r'.position = r.position ∨ r'.Inside

theorem Follows.refl (r : Reader) : Follows r r :=
  ⟨rfl, rfl, Or.inl rfl⟩

theorem Follows.trans {r r' r'' : Reader} (hfirst : Follows r r') (hsecond : Follows r' r'') :
    Follows r r'' := by
  refine ⟨hsecond.contents.trans hfirst.contents, hsecond.order.trans hfirst.order, ?_⟩
  rcases hsecond.position with hsame | hinside
  · rcases hfirst.position with hsame' | ⟨data, hdata, hbounds⟩
    · exact Or.inl (hsame.trans hsame')
    · right
      exact ⟨data, hsecond.contents.trans hdata, by rwa [hsame]⟩
  · exact Or.inr hinside

theorem Follows.inside {r r' : Reader} (h : Follows r r') (hinside : r.Inside) : r'.Inside := by
  rcases h.position with hsame | hlanded
  · obtain ⟨data, hdata, hbounds⟩ := hinside
    exact ⟨data, h.contents.trans hdata, by rwa [hsame]⟩
  · exact hlanded

/-- A successful run only moves the reader, and only to offsets of the buffer. -/
def Steady {α : Type} (action : Action α) : Prop :=
  ∀ r value r', action r = .ok value r' → Follows r r'

variable {α β : Type}

theorem steady_pure (value : α) : Steady (pure value : Action α) := by
  intro r result r' h
  cases h
  exact Follows.refl r

theorem steady_throw (fault : Fault) : Steady (throw fault : Action α) := by
  intro r result r' h
  cases h

theorem Steady.bind {action : Action α} {f : α → Action β} (haction : Steady action)
    (hf : ∀ value, Steady (f value)) : Steady (action >>= f) := by
  intro r result r' h
  obtain ⟨value, middle, hfirst, hsecond⟩ := bind_eq_ok.1 h
  exact (haction _ _ _ hfirst).trans (hf _ _ _ _ hsecond)

theorem Steady.ite {condition : Prop} [Decidable condition] {first second : Action α}
    (hfirst : Steady first) (hsecond : Steady second) :
    Steady (if condition then first else second) := by
  split <;> assumption

theorem steady_get : Steady (get : Action Reader) := by
  intro r value r' h
  cases h
  exact Follows.refl r

theorem steady_buffer : Steady buffer := by
  intro r value r' h
  obtain ⟨_, rfl⟩ := buffer_eq_ok.1 h
  exact Follows.refl _

theorem steady_seek (offset : Int) : Steady (seek offset) := by
  intro r value r' h
  obtain ⟨data, hdata, hlow, hhigh, rfl⟩ := seek_eq_ok.1 h
  exact ⟨rfl, rfl, Or.inr ⟨data, hdata, hlow, hhigh⟩⟩

theorem steady_field (width : Nat) : Steady (field width) := by
  intro r value r' h
  obtain ⟨data, hdata, hlow, hhigh, _, rfl⟩ := field_eq_ok.1 h
  refine ⟨rfl, rfl, Or.inr ⟨data, hdata, ?_, hhigh⟩⟩
  change 0 ≤ r.position + width
  omega

theorem steady_unsigned (width : Nat) : Steady (unsigned width) :=
  (steady_field width).bind fun _ ↦ steady_get.bind fun _ ↦ steady_pure _

theorem steady_textAt (offset : Int) : Steady (textAt offset) := by
  refine (steady_throw _).ite (steady_buffer.bind fun data ↦ Steady.ite ?_ (steady_throw _))
  split
  · exact steady_pure _
  · exact steady_throw _

end CompiledScript.Reader
