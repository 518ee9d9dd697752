import CompiledScript.Proofs.Reader.Steady

/-!
# Actions made of basic ones

The decoders of a script are put together from three basic actions: moves, numbers and texts.
`Composed` says this of an action, so that whatever holds of the basic actions and is kept by doing
one action after another is proved once and then known of every decoder. A composed action is
steady; and as long as the reader is not closed, it fails only where the buffer ends too early.

The latter is an instance of `Confined`, which says of a step over any kind of state what its
successes keep and how it can fail.
-/

namespace CompiledScript

theorem bind_eq_error {ε σ α β : Type} {x : EStateM ε σ α} {f : α → EStateM ε σ β} {s s' : σ}
    {e : ε} :
    (x >>= f) s = .error e s' ↔
      x s = .error e s' ∨ ∃ a middle, x s = .ok a middle ∧ f a middle = .error e s' := by
  change EStateM.bind x f s = _ ↔ _
  unfold EStateM.bind
  cases h : x s with
  | error e' middle => simp
  | ok a middle =>
    constructor
    · exact fun hrest ↦ Or.inr ⟨a, middle, rfl, hrest⟩
    · rintro (hfirst | ⟨a', middle', heq, hrest⟩)
      · cases hfirst
      · cases heq
        exact hrest

/-- From a state with the property, a success leads to such a state, and a failure is an allowed
one. -/
structure Confined {ε σ α : Type} (property : σ → Prop) (allowed : ε → Prop)
    (step : EStateM ε σ α) : Prop where
  keeps : ∀ s value s', property s → step s = .ok value s' → property s'
  fault : ∀ s e s', property s → step s = .error e s' → allowed e

section Confined

variable {ε σ α β : Type} {property : σ → Prop} {allowed weaker : ε → Prop}
  {step : EStateM ε σ α} {f : α → EStateM ε σ β}

theorem confined_pure (value : α) : Confined property allowed (pure value : EStateM ε σ α) where
  keeps := by
    intro s result s' hs h
    cases h
    exact hs
  fault := by
    intro s e s' _ h
    cases h

theorem confined_get : Confined property allowed (get : EStateM ε σ σ) where
  keeps := by
    intro s value s' hs h
    cases h
    exact hs
  fault := by
    intro s e s' _ h
    cases h

theorem confined_modify {change : σ → σ} (hchange : ∀ s, property s → property (change s)) :
    Confined property allowed (modify change : EStateM ε σ Unit) where
  keeps := by
    intro s value s' hs h
    cases h
    exact hchange s hs
  fault := by
    intro s e s' _ h
    cases h

theorem confined_throw {e : ε} (he : allowed e) :
    Confined property allowed (throw e : EStateM ε σ α) where
  keeps := by
    intro s value s' _ h
    cases h
  fault := by
    intro s e' s' _ h
    cases h
    exact he

/-- What follows a step needs to be confined only for the values that the step yields. -/
theorem Confined.bind_of_eq_ok (hstep : Confined property allowed step)
    (hf : ∀ value, (∃ s s', step s = .ok value s') → Confined property allowed (f value)) :
    Confined property allowed (step >>= f) where
  keeps := by
    intro s result s' hs h
    obtain ⟨value, middle, hfirst, hsecond⟩ := bind_eq_ok.1 h
    exact (hf value ⟨s, middle, hfirst⟩).keeps _ _ _ (hstep.keeps _ _ _ hs hfirst) hsecond
  fault := by
    intro s e s' hs h
    rcases bind_eq_error.1 h with hfirst | ⟨value, middle, hfirst, hsecond⟩
    · exact hstep.fault _ _ _ hs hfirst
    · exact (hf value ⟨s, middle, hfirst⟩).fault _ _ _ (hstep.keeps _ _ _ hs hfirst) hsecond

theorem Confined.bind (hstep : Confined property allowed step)
    (hf : ∀ value, Confined property allowed (f value)) : Confined property allowed (step >>= f) :=
  hstep.bind_of_eq_ok fun value _ ↦ hf value

theorem Confined.mono (hstep : Confined property allowed step)
    (hallowed : ∀ e, allowed e → weaker e) : Confined property weaker step where
  keeps := hstep.keeps
  fault := fun s e s' hs h ↦ hallowed e (hstep.fault s e s' hs h)

end Confined

namespace Reader

/-- The action is made of basic actions. Of the reader itself it asks no more than the position. -/
inductive Composed : {α : Type} → Action α → Prop where
  | pure {α : Type} (value : α) : Composed (Pure.pure value : Action α)
  | bind {α β : Type} {action : Action α} {f : α → Action β} (haction : Composed action)
      (hf : ∀ value, Composed (f value)) : Composed (action >>= f)
  | inspect {α : Type} {f : Reader → Action α} (hf : ∀ r, Composed (f r))
      (hposition : ∀ r r' : Reader, r.position = r'.position → f r = f r') :
      Composed (get >>= f)
  | seek (offset : Int) : Composed (Reader.seek offset)
  | unsigned (width : Nat) : Composed (Reader.unsigned width)
  | textAt (offset : Int) : Composed (Reader.textAt offset)

section Actions

variable {α β : Type} {action : Action α}

theorem Composed.map (haction : Composed action) (g : α → β) :
    Composed (action >>= fun value ↦ Pure.pure (g value)) :=
  haction.bind fun value ↦ .pure (g value)

theorem composed_skip (count : Int) : Composed (skip count) :=
  .inspect (fun _ ↦ .seek _) fun _ _ h ↦ by rw [h]

theorem composed_align {boundary : Int} (hboundary : boundary ≠ 0) :
    Composed (align boundary) := by
  refine .inspect (fun r ↦ ?_) fun _ _ h ↦ by rw [h]
  rw [padding?, if_neg hboundary]
  dsimp only
  split
  · exact .pure 0
  · exact (composed_skip _).map _

theorem composed_signed (width : Nat) : Composed (signed width) :=
  (Composed.unsigned width).map _

theorem composed_f32 : Composed f32 :=
  (Composed.unsigned 4).map _

theorem composed_peekText (offset : Int) : Composed (peekText offset) :=
  (Composed.textAt offset).map _

theorem composed_repeated (count : Nat) (haction : Composed action) :
    Composed (repeated count action) := by
  induction count with
  | zero => exact .pure []
  | succ count ih => exact haction.bind fun _ ↦ ih.map _

end Actions

/-! ## Basic actions on an open reader -/

section Open

variable {α : Type} {data : ByteArray} {r : Reader}

theorem buffer_bind_of_contents (hdata : r.contents = some data) (f : ByteArray → Action α) :
    (buffer >>= f) r = f data r := by
  change EStateM.bind buffer f r = _
  unfold EStateM.bind
  rw [buffer_eq_ok.2 ⟨hdata, rfl⟩]

theorem seek_of_contents (hdata : r.contents = some data) (offset : Int) :
    seek offset r =
      if 0 ≤ offset ∧ offset ≤ data.size then .ok () { r with position := offset }
      else .error (.seekOutside offset data.size) r := by
  unfold seek length
  rw [bind_assoc, buffer_bind_of_contents hdata, pure_bind]
  split <;> rfl

theorem field_of_contents (hdata : r.contents = some data) (width : Nat) :
    field width r =
      if 0 ≤ r.position ∧ r.position + width ≤ data.size then
        .ok (data.extract r.position.toNat (r.position.toNat + width)).data.toList
          { r with position := r.position + width }
      else .error (.readOutside width r.position data.size) r := by
  unfold field
  rw [buffer_bind_of_contents hdata]
  change (if 0 ≤ r.position ∧ r.position + width ≤ data.size then _ else _ : Action _) r = _
  split <;> rfl

theorem bytes_of_contents (hdata : r.contents = some data) (count : Int) :
    bytes count r =
      if 0 ≤ count ∧ r.position + count ≤ data.size then
        .ok (Bytes.window data r.position (r.position + count))
          { r with position := r.position + count }
      else .error (.readOutside count r.position data.size) r := by
  unfold bytes
  rw [buffer_bind_of_contents hdata]
  change (if 0 ≤ count ∧ r.position + count ≤ data.size then _ else _ : Action _) r = _
  split <;> rfl

/-- A text is found if its offset is not negative and a zero byte stands behind it. -/
theorem textAt_eq_ok {offset : Int} {value : String × Int} {r' : Reader} :
    textAt offset r = .ok value r' ↔ ∃ (data : ByteArray) (stop : Nat),
      r.contents = some data ∧ 0 ≤ offset ∧ Bytes.findFrom? data 0 offset.toNat = some stop ∧
      value = (Text.Utf8.decodeLenient (data.extract offset.toNat stop).data.toList,
        (stop : Int) + 1) ∧ r' = r := by
  unfold textAt
  constructor
  · intro h
    split at h
    · cases h
    · obtain ⟨data, same, hbuffer, hrest⟩ := bind_eq_ok.1 h
      obtain ⟨hdata, rfl⟩ := buffer_eq_ok.1 hbuffer
      split at hrest
      · cases hfind : Bytes.findFrom? data 0 offset.toNat with
        | none =>
          rw [hfind] at hrest
          cases hrest
        | some stop =>
          rw [hfind] at hrest
          obtain ⟨rfl, rfl⟩ := EStateM.Result.ok.inj hrest
          exact ⟨data, stop, hdata, by omega, hfind, rfl, rfl⟩
      · cases hrest
  · rintro ⟨data, stop, hdata, hnonneg, hfind, rfl, rfl⟩
    have hbounds := Bytes.bounds_of_findFrom?_eq_some hfind
    rw [if_neg (by omega), buffer_bind_of_contents hdata, if_pos (by omega), hfind]
    rfl

end Open

/-! ## What composed actions have in common -/

variable {α : Type} {action : Action α} {data : ByteArray}

theorem Composed.steady (h : Composed action) : Steady action := by
  induction h with
  | pure value => exact steady_pure value
  | bind _ _ haction hf => exact haction.bind hf
  | inspect _ _ hf => exact steady_get.bind hf
  | seek offset => exact steady_seek offset
  | unsigned width => exact steady_unsigned width
  | textAt offset => exact steady_textAt offset

/-- The reader has the buffer and is not closed. -/
def Open (data : ByteArray) (r : Reader) : Prop :=
  r.contents = some data

/-- The buffer ended too early. -/
def Truncates (fault : Fault) : Prop :=
  fault.kind = .truncation

theorem Steady.confined {allowed : Fault → Prop} (haction : Steady action)
    (hfault : ∀ r fault r', r.Open data → action r = .error fault r' → allowed fault) :
    Confined (Open data) allowed action where
  keeps := fun r value r' hr h ↦ (haction r value r' h).contents.trans hr
  fault := hfault

theorem confined_seek (offset : Int) : Confined (Open data) Truncates (seek offset) := by
  refine (steady_seek offset).confined fun r fault r' hr h ↦ ?_
  rw [seek_of_contents hr] at h
  split at h <;> cases h
  rfl

theorem confined_unsigned (width : Nat) : Confined (Open data) Truncates (unsigned width) := by
  refine (steady_unsigned width).confined fun r fault r' hr h ↦ ?_
  rcases bind_eq_error.1 h with hfield | ⟨_, _, _, hnumber⟩
  · rw [field_of_contents hr] at hfield
    split at hfield <;> cases hfield
    rfl
  · cases hnumber

theorem confined_textAt (offset : Int) : Confined (Open data) Truncates (textAt offset) := by
  refine (steady_textAt offset).confined fun r fault r' hr h ↦ ?_
  unfold textAt at h
  split at h
  · cases h
    rfl
  · rw [buffer_bind_of_contents hr] at h
    split at h
    · cases hfind : Bytes.findFrom? data 0 offset.toNat with
      | some stop =>
        rw [hfind] at h
        cases h
      | none =>
        rw [hfind] at h
        cases h
        rfl
    · cases h
      rfl

/-- A composed action on an open reader fails only where the buffer ends too early. -/
theorem Composed.confined (haction : Composed action) :
    Confined (Open data) Truncates action := by
  induction haction with
  | pure value => exact confined_pure value
  | bind _ _ hfirst hrest => exact hfirst.bind hrest
  | inspect _ _ hf => exact confined_get.bind hf
  | seek offset => exact confined_seek offset
  | unsigned width => exact confined_unsigned width
  | textAt offset => exact confined_textAt offset

/-- Reading a number of bytes is confined as well, though it is not steady: a negative position
counts from the end, and the reader may be left there. -/
theorem confined_bytes (count : Int) : Confined (Open data) Truncates (bytes count) where
  keeps := by
    intro r value r' hr h
    obtain ⟨_, _, _, _, _, rfl⟩ := bytes_eq_ok.1 h
    exact hr
  fault := by
    intro r fault r' hr h
    rw [bytes_of_contents hr] at h
    split at h <;> cases h
    rfl

end Reader
end CompiledScript
