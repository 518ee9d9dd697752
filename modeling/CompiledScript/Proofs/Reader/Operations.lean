import CompiledScript.Proofs.Bytes.Held
import CompiledScript.Proofs.Reader.Atomic

/-!
# Sequences of operations on a reader

The caller of a reader moves it, reads from it, closes it, and may go on after a failure. Since a
failure leaves the reader as it was, only successes have to be looked at: one step keeps the position
within the buffer, and so does every sequence of them. The buffer stays the same until the reader is
closed; from then on nothing is read any more.
-/

namespace CompiledScript.Reader

/-- The formats of fixed width that a reader can read. -/
inductive NumberFormat where
  | u8 | i8 | u16 | i16 | u32 | i32 | i64 | f32
  deriving DecidableEq

inductive Answer where
  | done
  | padding (count : Int)
  | length (size : Nat)
  | number (value : Int)
  | real (value : Binary32)
  | bytes (chunk : ByteArray)
  | text (value : String)

/-- What a caller can do with a reader. -/
inductive Operation where
  | seek (offset : Int)
  | skip (count : Int)
  | align (boundary : Int)
  | close
  | number (format : NumberFormat)
  | bytes (count : Int)
  | text
  | peekText (offset : Int)
  | length
  deriving DecidableEq

/-! ## Numbers -/

namespace NumberFormat

def width : NumberFormat → Nat
  | .u8 | .i8 => 1
  | .u16 | .i16 => 2
  | .u32 | .i32 | .f32 => 4
  | .i64 => 8

def read : NumberFormat → Action Answer
  | .u8 => do return .number (← Reader.u8)
  | .i8 => do return .number (← Reader.i8)
  | .u16 => do return .number (← Reader.u16)
  | .i16 => do return .number (← Reader.i16)
  | .u32 => do return .number (← Reader.u32)
  | .i32 => do return .number (← Reader.i32)
  | .i64 => do return .number (← Reader.i64)
  | .f32 => do return .real (← Reader.f32)

def decode (format : NumberFormat) (order : ByteOrder) (bytes : List UInt8) : Answer :=
  let value := Number.ofBytes order bytes
  match format with
  | .u8 | .u16 | .u32 => .number value
  | .i8 | .i16 | .i32 | .i64 => .number (Number.toSigned format.width value)
  | .f32 => .real ⟨value.toUInt32⟩

variable {format : NumberFormat}

/-- All formats are read alike: first the bytes, then what they stand for. -/
theorem read_eq (format : NumberFormat) :
    format.read = do
      let bytes ← field format.width
      return format.decode (← get).order bytes := by
  cases format <;>
    simp only [read, decode, width, Reader.u8, Reader.i8, Reader.u16, Reader.i16, Reader.u32,
      Reader.i32, Reader.i64, Reader.f32, signed, unsigned, bind_assoc, pure_bind]

theorem atomic_read (format : NumberFormat) : Atomic format.read := by
  rw [read_eq]
  exact (atomic_field _).bind_of_unfailing fun _ ↦ unfailing_get.bind fun _ ↦ unfailing_pure _

theorem steady_read (format : NumberFormat) : Steady format.read := by
  rw [read_eq]
  exact (steady_field _).bind fun _ ↦ steady_get.bind fun _ ↦ steady_pure _

theorem needsBuffer_read (format : NumberFormat) : NeedsBuffer format.read := by
  rw [read_eq]
  exact (needsBuffer_field _).bind _

/-- A number is read if all of its bytes lie in the buffer, and stands for exactly those bytes. -/
theorem read_eq_ok {r r' : Reader} {answer : Answer} :
    format.read r = .ok answer r' ↔ ∃ data : ByteArray, r.contents = some data ∧
      0 ≤ r.position ∧ r.position + format.width ≤ data.size ∧
      answer = format.decode r.order
        (Bytes.window data r.position (r.position + format.width)).data.toList ∧
      r' = { r with position := r.position + format.width } := by
  have hwindow (data : ByteArray) (hlow : 0 ≤ r.position) :
      Bytes.window data r.position (r.position + format.width) =
        data.extract r.position.toNat (r.position.toNat + format.width) := by
    rw [Bytes.window_of_nonneg hlow (by omega), Int.toNat_add_nat hlow]
  rw [read_eq]
  constructor
  · intro h
    obtain ⟨bytes, middle, hfield, hrest⟩ := bind_eq_ok.1 h
    obtain ⟨data, hdata, hlow, hhigh, rfl, rfl⟩ := field_eq_ok.1 hfield
    cases hrest
    exact ⟨data, hdata, hlow, hhigh, by rw [hwindow data hlow], rfl⟩
  · rintro ⟨data, hdata, hlow, hhigh, rfl, rfl⟩
    refine bind_eq_ok.2 ⟨_, _, field_eq_ok.2 ⟨data, hdata, hlow, hhigh, rfl, rfl⟩, ?_⟩
    rw [hwindow data hlow]
    rfl

end NumberFormat

/-! ## One operation -/

namespace Operation

def run : Operation → Action Answer
  | .seek offset => do
    Reader.seek offset
    return .done
  | .skip count => do
    Reader.skip count
    return .done
  | .align boundary => do return .padding (← Reader.align boundary)
  | .close => do
    modify Reader.close
    return .done
  | .number format => format.read
  | .bytes count => do return .bytes (← Reader.bytes count)
  | .text => do return .text (← Reader.text)
  | .peekText offset => do return .text (← Reader.peekText offset)
  | .length => do return .length (← Reader.length)

variable {operation : Operation} {data : ByteArray} {r r' : Reader} {answer : Answer}

theorem atomic_run (operation : Operation) : Atomic operation.run := by
  cases operation with
  | seek offset => exact (atomic_seek offset).map _
  | skip count => exact (atomic_skip count).map _
  | align boundary => exact (atomic_align boundary).map _
  | close => exact (unfailing_modify _).atomic.map _
  | number format => exact format.atomic_read
  | bytes count => exact (atomic_bytes count).map _
  | text => exact atomic_text.map _
  | peekText offset => exact ((atomic_textAt offset).map _).map _
  | length => exact atomic_length.map _

/-- Reading a number of bytes is told apart from the other moves: from a negative position it can
end at a negative one. -/
theorem cases_of_run_eq_ok (h : operation.run r = .ok answer r') :
    (operation = .close ∧ r' = r.close) ∨
    (operation ≠ .close ∧ Follows r r') ∨
    ∃ count chunk, operation = .bytes count ∧ Reader.bytes count r = .ok chunk r' := by
  cases operation with
  | seek offset => exact .inr (.inl ⟨nofun, (Composed.seek offset).map _ |>.steady _ _ _ h⟩)
  | skip count => exact .inr (.inl ⟨nofun, (composed_skip count).map _ |>.steady _ _ _ h⟩)
  | align boundary =>
    exact .inr (.inl ⟨nofun, (steady_align boundary).bind (fun _ ↦ steady_pure _) _ _ _ h⟩)
  | close =>
    obtain ⟨_, _, hclose, hrest⟩ := bind_eq_ok.1 h
    cases hclose
    cases hrest
    exact .inl ⟨rfl, rfl⟩
  | number format => exact .inr (.inl ⟨nofun, format.steady_read _ _ _ h⟩)
  | bytes count =>
    obtain ⟨chunk, middle, hbytes, hrest⟩ := bind_eq_ok.1 h
    cases hrest
    exact .inr (.inr ⟨count, chunk, rfl, hbytes⟩)
  | text => exact .inr (.inl ⟨nofun, steady_text.bind (fun _ ↦ steady_pure _) _ _ _ h⟩)
  | peekText offset =>
    exact .inr (.inl ⟨nofun, (composed_peekText offset).map _ |>.steady _ _ _ h⟩)
  | length =>
    have hsteady : Steady Reader.length := steady_buffer.bind fun _ ↦ steady_pure _
    exact .inr (.inl ⟨nofun, hsteady.bind (fun _ ↦ steady_pure _) _ _ _ h⟩)

/-- A step keeps the byte order, and the buffer unless it releases it. -/
theorem source_run (operation : Operation) (r : Reader) :
    (stateOf (operation.run r)).source =
      (if operation = .close then none else r.contents, r.order) := by
  cases hrun : operation.run r with
  | error fault r' =>
    obtain ⟨rfl, _⟩ := operation.atomic_run r fault r' hrun
    have hne : operation ≠ .close := by
      rintro rfl
      cases hrun
    rw [if_neg hne]
    rfl
  | ok answer r' =>
    rcases cases_of_run_eq_ok hrun with
      ⟨rfl, rfl⟩ | ⟨hne, hfollows⟩ | ⟨count, chunk, rfl, hbytes⟩
    · rfl
    · rw [if_neg hne]
      exact Prod.ext hfollows.contents hfollows.order
    · obtain ⟨_, _, _, _, _, rfl⟩ := bytes_eq_ok.1 hbytes
      rfl

/-- On a closed reader the only successes are closing it again and moving it by nothing. -/
theorem eq_of_closed (hclosed : r.contents = none) (h : operation.run r = .ok answer r') :
    r' = r ∧ (operation = .close ∧ answer = .done ∨
      (∃ boundary, operation = .align boundary) ∧ answer = .padding 0) := by
  cases operation with
  | seek offset => exact absurd hclosed ((needsBuffer_seek offset).bind _ _ _ _ h)
  | skip count => exact absurd hclosed ((needsBuffer_skip count).bind _ _ _ _ h)
  | align boundary =>
    obtain ⟨count, middle, halign, hrest⟩ := bind_eq_ok.1 h
    obtain ⟨rfl, rfl⟩ := eq_zero_of_align_eq_ok hclosed halign
    cases hrest
    exact ⟨rfl, .inr ⟨⟨boundary, rfl⟩, rfl⟩⟩
  | close =>
    obtain ⟨_, _, hclose, hrest⟩ := bind_eq_ok.1 h
    cases hclose
    cases hrest
    refine ⟨?_, .inl ⟨rfl, rfl⟩⟩
    rw [Reader.close, ← hclosed]
  | number format => exact absurd hclosed (format.needsBuffer_read _ _ _ h)
  | bytes count => exact absurd hclosed ((needsBuffer_bytes count).bind _ _ _ _ h)
  | text => exact absurd hclosed (needsBuffer_text.bind _ _ _ _ h)
  | peekText offset => exact absurd hclosed (((needsBuffer_textAt offset).bind _).bind _ _ _ _ h)
  | length => exact absurd hclosed (needsBuffer_length.bind _ _ _ _ h)

theorem bytes_run_eq_ok {count : Int} :
    (Operation.bytes count).run r = .ok answer r' ↔
      ∃ chunk, Reader.bytes count r = .ok chunk r' ∧ answer = .bytes chunk := by
  refine bind_eq_ok.trans ⟨?_, ?_⟩
  · rintro ⟨chunk, middle, hbytes, hrest⟩
    cases hrest
    exact ⟨chunk, hbytes, rfl⟩
  · rintro ⟨chunk, hbytes, rfl⟩
    exact ⟨chunk, r', hbytes, rfl⟩

end Operation

/-! ## Any number of operations -/

variable {data : ByteArray} {r r' : Reader}

/-- The position is an offset of the buffer, which the reader has unless it was closed. -/
structure Within (data : ByteArray) (r : Reader) : Prop where
  contents : r.contents = none ∨ r.contents = some data
  low : 0 ≤ r.position
  high : r.position ≤ data.size

theorem Within.eq_of_contents {found : ByteArray} (h : r.Within data)
    (hfound : r.contents = some found) : found = data := by
  rcases h.contents with hnone | hdata
  · rw [hnone] at hfound
    cases hfound
  · exact Option.some.inj (hfound.symm.trans hdata)

theorem Within.of_follows (h : r.Within data) (hfollows : Follows r r') : r'.Within data := by
  have hcontents : r'.contents = none ∨ r'.contents = some data :=
    hfollows.contents ▸ h.contents
  rcases hfollows.position with hsame | ⟨found, hfound, hlow, hhigh⟩
  · exact ⟨hcontents, hsame ▸ h.low, hsame ▸ h.high⟩
  · obtain rfl := h.eq_of_contents (hfollows.contents.symm.trans hfound)
    exact ⟨hcontents, hlow, hhigh⟩

theorem Within.run (h : r.Within data) (operation : Operation) :
    (stateOf (operation.run r)).Within data := by
  cases hrun : operation.run r with
  | error fault r' =>
    obtain ⟨rfl, _⟩ := operation.atomic_run r fault r' hrun
    exact h
  | ok answer r' =>
    rcases Operation.cases_of_run_eq_ok hrun with
      ⟨rfl, rfl⟩ | ⟨_, hfollows⟩ | ⟨count, chunk, rfl, hbytes⟩
    · exact ⟨.inl rfl, h.low, h.high⟩
    · exact h.of_follows hfollows
    · obtain ⟨found, hfound, hcount, hend, _, rfl⟩ := bytes_eq_ok.1 hbytes
      obtain rfl := h.eq_of_contents hfound
      exact ⟨h.contents, Int.add_nonneg h.low hcount, hend⟩

/-- The reader after some operations, each of which may have succeeded or failed. -/
def after (r : Reader) (operations : List Operation) : Reader :=
  operations.foldl (fun r operation ↦ stateOf (operation.run r)) r

theorem Within.after (h : r.Within data) (operations : List Operation) :
    (r.after operations).Within data := by
  induction operations generalizing r with
  | nil => exact h
  | cons operation operations ih => exact ih (h.run operation)

theorem source_after (r : Reader) (operations : List Operation) :
    (r.after operations).source =
      (if .close ∈ operations then none else r.contents, r.order) := by
  induction operations generalizing r with
  | nil => rfl
  | cons operation operations ih =>
    have hstep := Prod.mk.inj (operation.source_run r)
    refine (ih (stateOf (operation.run r))).trans ?_
    rw [hstep.1, hstep.2]
    by_cases hclose : operation = .close
    · simp [hclose]
    · simp [hclose, Ne.symm hclose]

/-- Whatever is done with a reader, its position stays within the buffer, and the buffer stays until
the reader is closed. An operation that fails leaves the reader as it was, at whatever position. A
number, or a number of bytes, is read from the bytes that follow the position, which are passed over;
looking up a text moves nothing. A closed reader yields nothing. -/
theorem after_within_and_run_atomic (order : ByteOrder) (data : ByteArray)
    (operations : List Operation) :
    (0 ≤ ((ofBytes order data).after operations).position ∧
      ((ofBytes order data).after operations).position ≤ data.size ∧
      ((ofBytes order data).after operations).order = order ∧
      ((ofBytes order data).after operations).contents =
        if .close ∈ operations then none else some data) ∧
    (∀ (operation : Operation) (r : Reader) fault r', operation.run r = .error fault r' →
      r' = r ∧ fault.IsOfReader) ∧
    (∀ (format : NumberFormat) (r : Reader) answer r',
      (Operation.number format).run r = .ok answer r' ↔ ∃ found : ByteArray,
        r.contents = some found ∧ 0 ≤ r.position ∧ r.position + format.width ≤ found.size ∧
        answer = format.decode r.order
          (Bytes.window found r.position (r.position + format.width)).data.toList ∧
        r' = { r with position := r.position + format.width }) ∧
    (∀ (count : Int) (r : Reader) answer r',
      (Operation.bytes count).run r = .ok answer r' ↔ ∃ found : ByteArray,
        r.contents = some found ∧ 0 ≤ count ∧ r.position + count ≤ found.size ∧
        answer = .bytes (Bytes.window found r.position (r.position + count)) ∧
        r' = { r with position := r.position + count }) ∧
    (∀ (found : ByteArray) (start stop : Int), 0 ≤ start → start ≤ stop → stop ≤ found.size →
      ((Bytes.window found start stop).size : Int) = stop - start) ∧
    (∀ (offset : Int) (r : Reader), stateOf ((Operation.peekText offset).run r) = r) ∧
    ∀ (operation : Operation) (r : Reader) answer r', r.contents = none →
      operation.run r = .ok answer r' →
        r' = r ∧ (operation = .close ∧ answer = .done ∨
          (∃ boundary, operation = .align boundary) ∧ answer = .padding 0) := by
  have hwithin : ((ofBytes order data).after operations).Within data :=
    Within.after ⟨.inr rfl, Int.le_refl 0, Int.natCast_nonneg _⟩ operations
  have hsource := Prod.mk.inj (source_after (ofBytes order data) operations)
  refine ⟨⟨hwithin.low, hwithin.high, hsource.2, hsource.1⟩, Operation.atomic_run, ?_, ?_, ?_, ?_,
    fun operation r answer r' hclosed h ↦ Operation.eq_of_closed hclosed h⟩
  · exact fun format r answer r' ↦ NumberFormat.read_eq_ok
  · intro count r answer r'
    rw [Operation.bytes_run_eq_ok]
    constructor
    · rintro ⟨chunk, hbytes, rfl⟩
      obtain ⟨found, hfound, hcount, hend, rfl, rfl⟩ := bytes_eq_ok.1 hbytes
      exact ⟨found, hfound, hcount, hend, rfl, rfl⟩
    · rintro ⟨found, hfound, hcount, hend, rfl, rfl⟩
      exact ⟨_, bytes_eq_ok.2 ⟨found, hfound, hcount, hend, rfl, rfl⟩, rfl⟩
  · intro found start stop hlow hle hhigh
    rw [Bytes.window_of_nonneg hlow (by omega), ByteArray.size_extract]
    omega
  · intro offset r
    have hatomic := (Operation.peekText offset).atomic_run
    exact hatomic.stateOf_eq
      (((still_textAt offset).bind fun _ ↦ still_pure _).bind fun _ ↦ still_pure _) r

/-- Three failures, a number, an alignment that moves back, a text and a refused reading after the
reader was closed. -/
def operationsSample : List Operation :=
  [.skip (-1), .align 0, .number .u16, .seek 9, .align (-4), .text, .close, .number .u8]

theorem after_operationsSample :
    ((ofBytes .little ⟨#[1, 2, 3, 0, 255, 7]⟩).after operationsSample).position = 4 ∧
    ((ofBytes .little ⟨#[1, 2, 3, 0, 255, 7]⟩).after operationsSample).position ≤ 6 ∧
    ((ofBytes .little ⟨#[1, 2, 3, 0, 255, 7]⟩).after operationsSample).contents = none :=
  have h := (after_within_and_run_atomic .little ⟨#[1, 2, 3, 0, 255, 7]⟩ operationsSample).1
  ⟨by decide +kernel, h.2.1, h.2.2.2⟩

end CompiledScript.Reader
