import CompiledScript.Proofs.Bytes.Held
import CompiledScript.Proofs.Reader.Composed

/-!
# Reading a longer buffer

A step is *unaffected* by a change of its state if every success stays the same when the state is
changed beforehand. The change of interest here is to append bytes to the buffer of a reader. Bounds
only become wider by it, and the first zero byte behind an offset stays where it is; but a position
below zero counts from the end of the buffer, so all of this is said of states with a property that
rules such positions out, and that a success keeps.
-/

namespace CompiledScript

/-- From a state with the property, a success leads to such a state, and is the same success from
the changed state, up to the change. -/
def Unaffected {ε σ α : Type} (property : σ → Prop) (change : σ → σ) (step : EStateM ε σ α) :
    Prop :=
  ∀ s value s', property s → step s = .ok value s' →
    property s' ∧ step (change s) = .ok value (change s')

section Unaffected

variable {ε σ α β : Type} {property : σ → Prop} {change : σ → σ} {step : EStateM ε σ α}

theorem unaffected_pure (value : α) :
    Unaffected property change (pure value : EStateM ε σ α) := by
  intro s result s' hs h
  cases h
  exact ⟨hs, rfl⟩

theorem unaffected_throw (fault : ε) :
    Unaffected property change (throw fault : EStateM ε σ α) := by
  intro s result s' hs h
  cases h

theorem unaffected_modify {update : σ → σ} (hkeeps : ∀ s, property s → property (update s))
    (hcommutes : ∀ s, update (change s) = change (update s)) :
    Unaffected property change (modify update : EStateM ε σ Unit) := by
  intro s value s' hs h
  cases h
  refine ⟨hkeeps s hs, ?_⟩
  rw [← hcommutes s]
  rfl

theorem Unaffected.bind {f : α → EStateM ε σ β} (hstep : Unaffected property change step)
    (hf : ∀ value, Unaffected property change (f value)) :
    Unaffected property change (step >>= f) := by
  intro s result s' hs h
  obtain ⟨value, middle, hfirst, hsecond⟩ := bind_eq_ok.1 h
  obtain ⟨hmiddle, hfirst'⟩ := hstep s value middle hs hfirst
  obtain ⟨hs', hsecond'⟩ := hf value middle result s' hmiddle hsecond
  exact ⟨hs', bind_eq_ok.2 ⟨value, change middle, hfirst', hsecond'⟩⟩

theorem Unaffected.map (hstep : Unaffected property change step) (g : α → β) :
    Unaffected property change (step >>= fun value ↦ pure (g value)) :=
  hstep.bind fun value ↦ unaffected_pure (g value)

/-- A step may look at the state, as long as it does not see the change. -/
theorem unaffected_get_bind {f : σ → EStateM ε σ β} (hsame : ∀ s, f (change s) = f s)
    (hf : ∀ s, Unaffected property change (f s)) : Unaffected property change (get >>= f) := by
  intro s result s' hs h
  have hrun : f s s = .ok result s' := h
  obtain ⟨hs', hchanged⟩ := hf s s result s' hs hrun
  refine ⟨hs', ?_⟩
  rw [← hsame s] at hchanged
  exact hchanged

end Unaffected

namespace Bytes

variable {data : ByteArray} (tail : ByteArray)

/-- Bytes in front of the end are the same with others behind them. -/
theorem extract_append_of_le {start stop : Nat} (h : stop ≤ data.size) :
    (data ++ tail).extract start stop = data.extract start stop := by
  have hnone : tail.extract (start - data.size) (stop - data.size) = ByteArray.empty := by
    rw [ByteArray.extract_eq_empty_iff]
    omega
  rw [ByteArray.extract_append, hnone, ByteArray.append_empty]

/-- An occurrence of a byte is still the first one with others behind the data. -/
theorem findFrom?_append {byte : UInt8} {start offset : Nat}
    (h : findFrom? data byte start = some offset) :
    findFrom? (data ++ tail) byte start = some offset := by
  fun_induction findFrom? data byte start with
  | case1 start hstart hbyte =>
    have hlonger : start < (data ++ tail).size := by
      rw [ByteArray.size_append]
      omega
    rw [findFrom?, dif_pos hlonger, ByteArray.getElem_append_left hstart, if_pos hbyte]
    exact h
  | case2 start hstart hbyte ih =>
    have hlonger : start < (data ++ tail).size := by
      rw [ByteArray.size_append]
      omega
    rw [findFrom?, dif_pos hlonger, ByteArray.getElem_append_left hstart, if_neg hbyte]
    exact ih h
  | case3 start hstart => cases h

end Bytes

namespace Reader

/-- The reader with bytes appended to its buffer. -/
def appended (tail : ByteArray) (r : Reader) : Reader :=
  { r with contents := r.contents.map (· ++ tail) }

@[simp] theorem position_appended (tail : ByteArray) (r : Reader) :
    (r.appended tail).position = r.position := rfl

theorem contents_appended (tail : ByteArray) {r : Reader} {data : ByteArray}
    (h : r.contents = some data) : (r.appended tail).contents = some (data ++ tail) := by
  unfold appended
  rw [h, Option.map_some]

def NotBefore (r : Reader) : Prop :=
  0 ≤ r.position

/-- A success stays the same when bytes are appended to the buffer. -/
abbrev Extends {α : Type} (tail : ByteArray) (action : Action α) : Prop :=
  Unaffected NotBefore (appended tail) action

variable {α : Type} {action : Action α} (tail : ByteArray)

theorem extends_seek (offset : Int) : Extends tail (seek offset) := by
  intro r value r' _ h
  obtain ⟨data, hdata, hlow, hhigh, rfl⟩ := seek_eq_ok.1 h
  refine ⟨hlow, seek_eq_ok.2 ⟨data ++ tail, contents_appended tail hdata, hlow, ?_, rfl⟩⟩
  rw [ByteArray.size_append]
  omega

theorem extends_field (width : Nat) : Extends tail (field width) := by
  intro r value r' _ h
  obtain ⟨data, hdata, hlow, hhigh, rfl, rfl⟩ := field_eq_ok.1 h
  have hlonger : r.position + width ≤ (data ++ tail).size := by
    rw [ByteArray.size_append]
    omega
  constructor
  · change 0 ≤ r.position + width
    omega
  · apply field_eq_ok.2
    refine ⟨data ++ tail, contents_appended tail hdata, hlow, hlonger, ?_, rfl⟩
    rw [position_appended, Bytes.extract_append_of_le tail (by omega)]

theorem extends_unsigned (width : Nat) : Extends tail (unsigned width) :=
  (extends_field tail width).bind fun _ ↦
    unaffected_get_bind (fun _ ↦ rfl) fun _ ↦ unaffected_pure _

theorem extends_textAt (offset : Int) : Extends tail (textAt offset) := by
  intro r value r' hr h
  obtain ⟨data, stop, hdata, hnonneg, hfind, rfl, rfl⟩ := textAt_eq_ok.1 h
  have hstop := (Bytes.bounds_of_findFrom?_eq_some hfind).2
  refine ⟨hr, textAt_eq_ok.2 ⟨data ++ tail, stop, contents_appended tail hdata, hnonneg,
    Bytes.findFrom?_append tail hfind, ?_, rfl⟩⟩
  rw [Bytes.extract_append_of_le tail (by omega)]

/-- Nothing that is made of basic actions sees bytes behind those that it needs. -/
theorem Composed.extends (haction : Composed action) : Extends tail action := by
  induction haction with
  | pure value => exact unaffected_pure value
  | bind _ _ hfirst hrest => exact hfirst.bind hrest
  | inspect _ hposition hf =>
    exact unaffected_get_bind (fun r ↦ hposition _ r (position_appended tail r)) hf
  | seek offset => exact extends_seek tail offset
  | unsigned width => exact extends_unsigned tail width
  | textAt offset => exact extends_textAt tail offset

theorem extends_bytes (count : Int) : Extends tail (bytes count) := by
  intro r value r' hr h
  obtain ⟨data, hdata, hcount, hhigh, rfl, rfl⟩ := bytes_eq_ok.1 h
  have hlow : 0 ≤ r.position := hr
  have hstop : 0 ≤ r.position + count := Int.add_nonneg hlow hcount
  have hlonger : r.position + count ≤ (data ++ tail).size := by
    rw [ByteArray.size_append]
    omega
  refine ⟨hstop, bytes_eq_ok.2 ?_⟩
  refine ⟨data ++ tail, contents_appended tail hdata, hcount, hlonger, ?_, rfl⟩
  rw [position_appended, Bytes.window_of_nonneg hlow hstop, Bytes.window_of_nonneg hlow hstop,
    Bytes.extract_append_of_le tail (by omega)]

end Reader
end CompiledScript
