import CompiledScript.Reader.Basic

/-!
# What an action does to its reader

An action that succeeds is *forward* if it keeps the buffer and does not move back. All basic
actions are, except `seek` and `skip` to an earlier place, and so is everything that is made of
forward actions. The decoders rest on this: each instruction and each block is read forward from
its start, so reading one after another comes to an end.
-/

namespace CompiledScript

theorem bind_eq_ok {ε σ α β : Type} {x : EStateM ε σ α} {f : α → EStateM ε σ β} {s s' : σ} {b : β} :
    (x >>= f) s = .ok b s' ↔ ∃ a middle, x s = .ok a middle ∧ f a middle = .ok b s' := by
  show (EStateM.bind x f) s = _ ↔ _
  unfold EStateM.bind
  cases h : x s with
  | error e middle => simp
  | ok a middle =>
    constructor
    · exact fun hrest ↦ ⟨a, middle, rfl, hrest⟩
    · rintro ⟨a', middle', heq, hrest⟩
      cases heq
      exact hrest

namespace Reader

/-- A successful run keeps the buffer and the byte order, and does not move back. -/
def Forward {α : Type} (action : Action α) : Prop :=
  ∀ r value r', action r = .ok value r' →
    r'.contents = r.contents ∧ r'.order = r.order ∧ r.position ≤ r'.position

theorem forward_pure {α : Type} (value : α) : Forward (pure value : Action α) := by
  intro r result r' h
  cases h
  exact ⟨rfl, rfl, Int.le_refl _⟩

theorem forward_throw {α : Type} (fault : Fault) : Forward (throw fault : Action α) := by
  intro r result r' h
  cases h

theorem Forward.bind {α β : Type} {action : Action α} {f : α → Action β}
    (haction : Forward action) (hf : ∀ value, Forward (f value)) : Forward (action >>= f) := by
  intro r result r' h
  obtain ⟨value, middle, hfirst, hsecond⟩ := bind_eq_ok.1 h
  obtain ⟨hcontents, horder, hposition⟩ := haction _ _ _ hfirst
  obtain ⟨hcontents', horder', hposition'⟩ := hf _ _ _ _ hsecond
  exact ⟨hcontents'.trans hcontents, horder'.trans horder, Int.le_trans hposition hposition'⟩

theorem Forward.ite {α : Type} {condition : Prop} [Decidable condition] {first second : Action α}
    (hfirst : Forward first) (hsecond : Forward second) :
    Forward (if condition then first else second) := by
  split <;> assumption

theorem forward_get : Forward (get : Action Reader) := by
  intro r value r' h
  cases h
  exact ⟨rfl, rfl, Int.le_refl _⟩

theorem buffer_eq_ok {r r' : Reader} {data : ByteArray} :
    buffer r = .ok data r' ↔ r.contents = some data ∧ r' = r := by
  unfold buffer
  split
  · rename_i found hfound
    constructor
    · intro h
      cases h
      exact ⟨hfound, rfl⟩
    · rintro ⟨hdata, rfl⟩
      rw [hfound] at hdata
      cases hdata
      rfl
  · rename_i hnone
    constructor
    · intro h
      cases h
    · rintro ⟨hdata, _⟩
      rw [hnone] at hdata
      cases hdata

theorem forward_buffer : Forward buffer := by
  intro r value r' h
  obtain ⟨_, rfl⟩ := buffer_eq_ok.1 h
  exact ⟨rfl, rfl, Int.le_refl _⟩

/-- A move succeeds for the offsets of the buffer only. -/
theorem seek_eq_ok {r r' : Reader} {offset : Int} {value : Unit} :
    seek offset r = .ok value r' ↔ ∃ data : ByteArray, r.contents = some data ∧ 0 ≤ offset ∧
      offset ≤ data.size ∧ r' = { r with position := offset } := by
  unfold seek length
  simp only [bind_eq_ok, buffer_eq_ok]
  constructor
  · rintro ⟨size, middle, ⟨data, after, ⟨hdata, rfl⟩, hsize⟩, h⟩
    cases hsize
    split at h
    · rename_i hinside
      cases h
      exact ⟨data, hdata, hinside.1, hinside.2, rfl⟩
    · cases h
  · rintro ⟨data, hdata, hlow, hhigh, rfl⟩
    refine ⟨data.size, r, ⟨data, r, ⟨hdata, rfl⟩, rfl⟩, ?_⟩
    rw [if_pos ⟨hlow, hhigh⟩]
    rfl

theorem skip_eq_ok {r r' : Reader} {count : Int} {value : Unit} :
    skip count r = .ok value r' ↔ ∃ data : ByteArray, r.contents = some data ∧
      0 ≤ r.position + count ∧ r.position + count ≤ data.size ∧
      r' = { r with position := r.position + count } :=
  seek_eq_ok

theorem forward_skip {count : Int} (hcount : 0 ≤ count) : Forward (skip count) := by
  intro r value r' h
  obtain ⟨data, _, _, _, rfl⟩ := skip_eq_ok.1 h
  exact ⟨rfl, rfl, by show r.position ≤ r.position + count; omega⟩

/-- The next multiple of a positive boundary is not behind the position. -/
theorem paddingTo_nonneg {position boundary : Int} (hboundary : 0 < boundary) :
    0 ≤ paddingTo position boundary := by
  unfold paddingTo
  split
  · exact Int.le_refl 0
  · have := Int.fmod_lt_of_pos position hboundary
    omega

theorem forward_align {boundary : Int} (hboundary : 0 < boundary) : Forward (align boundary) := by
  unfold align padding?
  refine forward_get.bind fun r ↦ ?_
  rw [if_neg (by omega : ¬ boundary = 0)]
  exact (forward_pure 0).ite
    ((forward_skip (paddingTo_nonneg hboundary)).bind fun _ ↦ forward_pure _)

/-- A field is read if all of its bytes lie in the buffer. -/
theorem field_eq_ok {width : Nat} {r r' : Reader} {value : List UInt8} :
    field width r = .ok value r' ↔ ∃ data : ByteArray, r.contents = some data ∧ 0 ≤ r.position ∧
      r.position + width ≤ data.size ∧
      value = (data.extract r.position.toNat (r.position.toNat + width)).data.toList ∧
      r' = { r with position := r.position + width } := by
  unfold field
  simp only [bind_eq_ok, buffer_eq_ok]
  constructor
  · rintro ⟨data, after, ⟨hdata, rfl⟩, state, same, hget, h⟩
    cases hget
    split at h
    · rename_i hinside
      obtain ⟨_, moved, hmove, hresult⟩ := bind_eq_ok.1 h
      cases hmove
      cases hresult
      exact ⟨data, hdata, hinside.1, hinside.2, rfl, rfl⟩
    · cases h
  · rintro ⟨data, hdata, hlow, hhigh, rfl, rfl⟩
    refine ⟨data, r, ⟨hdata, rfl⟩, r, r, rfl, ?_⟩
    rw [if_pos ⟨hlow, hhigh⟩]
    rfl

theorem forward_field (width : Nat) : Forward (field width) := by
  intro r value r' h
  obtain ⟨data, _, _, _, _, rfl⟩ := field_eq_ok.1 h
  exact ⟨rfl, rfl, by show r.position ≤ r.position + width; omega⟩

theorem forward_unsigned (width : Nat) : Forward (unsigned width) :=
  (forward_field width).bind fun _ ↦ forward_get.bind fun _ ↦ forward_pure _

theorem forward_signed (width : Nat) : Forward (signed width) :=
  (forward_unsigned width).bind fun _ ↦ forward_pure _

theorem forward_f32 : Forward f32 :=
  (forward_unsigned 4).bind fun _ ↦ forward_pure _

/-- A run of bytes is read if its length is not negative and it ends in the buffer. -/
theorem bytes_eq_ok {count : Int} {r r' : Reader} {value : ByteArray} :
    bytes count r = .ok value r' ↔ ∃ data : ByteArray, r.contents = some data ∧ 0 ≤ count ∧
      r.position + count ≤ data.size ∧
      value = Bytes.window data r.position (r.position + count) ∧
      r' = { r with position := r.position + count } := by
  unfold bytes
  simp only [bind_eq_ok, buffer_eq_ok]
  constructor
  · rintro ⟨data, after, ⟨hdata, rfl⟩, state, same, hget, h⟩
    cases hget
    split at h
    · rename_i hinside
      obtain ⟨_, moved, hmove, hresult⟩ := bind_eq_ok.1 h
      cases hmove
      cases hresult
      exact ⟨data, hdata, hinside.1, hinside.2, rfl, rfl⟩
    · cases h
  · rintro ⟨data, hdata, hlow, hhigh, rfl, rfl⟩
    refine ⟨data, r, ⟨hdata, rfl⟩, r, r, rfl, ?_⟩
    rw [if_pos ⟨hlow, hhigh⟩]
    rfl

theorem forward_textAt (offset : Int) : Forward (textAt offset) := by
  refine (forward_throw _).ite (forward_buffer.bind fun data ↦ Forward.ite ?_ (forward_throw _))
  split
  · exact forward_pure _
  · exact forward_throw _

theorem forward_peekText (offset : Int) : Forward (peekText offset) :=
  (forward_textAt offset).bind fun _ ↦ forward_pure _

theorem forward_repeated {α : Type} (count : Nat) {action : Action α} (haction : Forward action) :
    Forward (repeated count action) := by
  induction count with
  | zero => exact forward_pure []
  | succ count ih => exact haction.bind fun _ ↦ ih.bind fun _ ↦ forward_pure _

/-- A number that was read takes `width` bytes, which lie in the buffer. -/
theorem position_of_unsigned_eq_ok {width : Nat} {r r' : Reader} {value : Nat}
    (h : unsigned width r = .ok value r') :
    ∃ data : ByteArray, r.contents = some data ∧ 0 ≤ r.position ∧
      r.position + width ≤ data.size ∧ r' = { r with position := r.position + width } := by
  obtain ⟨bytes, middle, hfield, hrest⟩ := bind_eq_ok.1 h
  obtain ⟨data, hdata, hlow, hhigh, _, rfl⟩ := field_eq_ok.1 hfield
  cases hrest
  exact ⟨data, hdata, hlow, hhigh, rfl⟩

theorem position_of_signed_eq_ok {width : Nat} {r r' : Reader} {value : Int}
    (h : signed width r = .ok value r') :
    ∃ data : ByteArray, r.contents = some data ∧ 0 ≤ r.position ∧
      r.position + width ≤ data.size ∧ r' = { r with position := r.position + width } := by
  obtain ⟨found, middle, hunsigned, hrest⟩ := bind_eq_ok.1 h
  cases hrest
  exact position_of_unsigned_eq_ok hunsigned

end Reader
end CompiledScript
