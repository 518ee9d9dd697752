import CompiledScript.Proofs.Script.Assembly
import CompiledScript.Proofs.Script.Renaming
import Mathlib.Data.Nat.Bitwise

/-!
# Decoding what was assembled

The decoder yields exactly the statements of a program, in order and each at the address where it
was written, wherever the code stands in the buffer and whatever the bytes are that it passes over.
The argument follows the writer: one lemma for each kind of operand, then one statement, and then
the whole program by induction. The index of texts is cut along with the code, since what it cites
between two addresses only concerns the code between them.
-/

namespace CompiledScript.Assembly

open Bytes Number Reader Fragment Script

namespace CitesExactly

variable {index : StringIndex} {start middle stop reference : Int} {text : String}
  {places first second : List (Int × String)}

theorem text?_eq_some (h : CitesExactly index start stop places) (hstart : start ≤ reference)
    (hstop : reference < stop) (hplace : (reference, text) ∈ places) :
    index.text? reference = some text :=
  (h reference text hstart hstop).2 hplace

theorem text?_eq_none (h : CitesExactly index start stop places) (hstart : start ≤ reference)
    (hstop : reference < stop) (hplaces : ∀ text, (reference, text) ∉ places) :
    index.text? reference = none := by
  apply Option.eq_none_iff_forall_ne_some.2
  intro text hcited
  exact hplaces text ((h reference text hstart hstop).1 hcited)

/-- Places of later code do not matter for the code in front of it. -/
theorem left (h : CitesExactly index start stop (first ++ second)) (hmiddle : middle ≤ stop)
    (hsecond : ∀ place ∈ second, middle ≤ place.1) : CitesExactly index start middle first := by
  intro reference text hlow hhigh
  rw [h reference text hlow (by omega), List.mem_append]
  constructor
  · rintro (hfirst | hlater)
    · exact hfirst
    · have hplace := hsecond _ hlater
      omega
  · exact Or.inl

/-- Places of earlier code do not matter for the code behind it. -/
theorem right (h : CitesExactly index start stop (first ++ second)) (hmiddle : start ≤ middle)
    (hfirst : ∀ place ∈ first, place.1 < middle) : CitesExactly index middle stop second := by
  intro reference text hlow hhigh
  rw [h reference text (by omega) hhigh, List.mem_append]
  constructor
  · rintro (hearlier | hsecond)
    · have hplace := hfirst _ hearlier
      omega
    · exact hsecond
  · exact Or.inr

end CitesExactly

variable {data : ByteArray} {index : StringIndex} {filler : Int → UInt8} {address : Int}

theorem reads_alignShort : Reads data alignShort address (padding filler 2 address) () :=
  (reads_padding (by decide)).map fun _ ↦ ()

theorem reads_alignWord : Reads data alignWord address (padding filler 4 address) () :=
  (reads_padding (by decide)).map fun _ ↦ ()

theorem reads_hashName (kind : SymbolKind) (value : UInt32) :
    Reads data (hashName id kind) address (aligned filler 4 value.toNat address)
      ⟨kind, value.toNat⟩ :=
  reads_alignWord.bind ((reads_unsigned (fitsUnsigned_uint32 value)).map (Symbol.mk kind))

theorem reads_variableEntry (value : UInt32) :
    Reads data (variableEntry id) address (variableCode filler value address)
      (.name .plain ⟨.variableName, value.toNat⟩) :=
  (reads_hashName .variableName value).bind ((reads_unread 1).map fun _ ↦ _)

theorem axis_eq_direction (flags : UInt8) (positive negative : Nat) :
    axis flags.toNat (2 ^ positive) (2 ^ negative) = direction flags positive negative := by
  have hbit (place : Nat) : flags.toNat &&& 2 ^ place ≠ 0 ↔ flags.toNat.testBit place = true := by
    rw [Nat.and_two_pow]
    cases flags.toNat.testBit place <;> simp
  unfold axis direction
  simp only [hbit]
  cases flags.toNat.testBit positive <;> cases flags.toNat.testBit negative <;> rfl

/-- The slot of a text stands for the text that is cited there, and otherwise for none. -/
theorem reads_citedText (content : Option String)
    (hindex : CitesExactly index address
      (address + ((padding filler 2).followedBy (unread filler 2) address).length)
      (textCitations content address)) :
    Reads data (citedText index) address ((padding filler 2).followedBy (unread filler 2) address)
      (content.getD "") := by
  have hnonneg : 0 ≤ gap address 2 := gap_nonneg address (by decide)
  have hlength := length_padding filler address (by decide : (0 : Int) < 2)
  have hslot : index.text? (address + (padding filler 2 address).length) = content := by
    rw [hlength]
    rw [length_followedBy, length_unread] at hindex
    cases content with
    | none => exact hindex.text?_eq_none (by omega) (by omega) (by simp [textCitations])
    | some text =>
      exact hindex.text?_eq_some (by omega) (by omega) (by simp [textCitations])
  apply reads_alignShort.bind
  apply Reads.get_bind
  change Reads data (skip 2 >>= fun _ ↦
    pure ((index.text? (address + (padding filler 2 address).length)).getD "")) _ _ _
  rw [hslot]
  exact (reads_unread 2).map fun _ ↦ content.getD ""

theorem length_labelCode (label : Label) : (label.code filler address).length = 4 := by
  cases label <;> simp [Label.code]

theorem length_caseCode (entry : Case) : (entry.code filler address).length = 8 := by
  rw [Case.code, length_followedBy, length_labelCode, length_number]

/-- A label is told apart as a text by its citation only. -/
theorem reads_caseLabel (label : Label) (isLast : Bool)
    (hindex : CitesExactly index address (address + 8) (label.citations address)) :
    Reads data (caseLabel index isLast) address (label.code filler address)
      (label.decoded isLast) := by
  apply Reads.get_bind
  cases label with
  | number value =>
    have hslot : index.text? ((readerAt data address).position + 2) = none :=
      hindex.text?_eq_none (by change address ≤ address + 2; omega)
        (by change address + 2 < address + 8; omega) (by simp [Label.citations])
    rw [hslot]
    have hread : Reads data _ address (Label.code filler (.number value) address) _ :=
      (reads_signed (fitsSigned_int32 value)).map fun number ↦
        if number = 0 ∧ isLast then CaseLabel.otherwise else .value number
    have hzero : value.toInt = 0 ↔ value = 0 := by
      rw [← Int32.toInt_zero, Int32.toInt_inj]
    simp only [hzero] at hread
    exact hread
  | text content =>
    have hslot : index.text? ((readerAt data address).position + 2) = some content :=
      hindex.text?_eq_some (by change address ≤ address + 2; omega)
        (by change address + 2 < address + 8; omega) (by simp [Label.citations, readerAt])
    rw [hslot]
    exact (reads_unread 4).map fun _ ↦ _

theorem reads_switchCase (entry : Case) (isLast : Bool) (place : Nat)
    (hindex : CitesExactly index address (address + 8) (entry.label.citations address)) :
    Reads data (switchCase index isLast place) address (entry.code filler address)
      ⟨entry.label.decoded isLast, address + 8 + entry.distance.toInt, place⟩ := by
  apply (reads_caseLabel entry.label isLast hindex).bind
  apply Reads.get_bind
  have hread : Reads data _ (address + (entry.label.code filler address).length)
      (number 4 entry.distance.toInt (address + (entry.label.code filler address).length)) _ :=
    (reads_signed (fitsSigned_int32 entry.distance)).map fun distance ↦
      SwitchCase.mk (entry.label.decoded isLast)
        (address + (entry.label.code filler address).length + distance + 4) place
  have htarget : address + (entry.label.code filler address).length + entry.distance.toInt + 4 =
      address + 8 + entry.distance.toInt := by
    rw [length_labelCode]
    omega
  rwa [htarget] at hread

theorem length_joined_caseCode (table : List Case) :
    (joined (Case.code filler) table address).length = 8 * table.length := by
  induction table generalizing address with
  | nil => rfl
  | cons entry rest ih =>
    rw [joined, List.length_append, ih, length_caseCode, List.length_cons]
    omega

theorem labelCitations_bounds (label : Label) :
    ∀ place ∈ label.citations address, address ≤ place.1 ∧ place.1 < address + 8 := by
  cases label with
  | number value => simp [Label.citations]
  | text content =>
    simp only [Label.citations, List.mem_singleton, forall_eq]
    omega

theorem caseCitations_bounds (table : List Case) :
    ∀ place ∈ caseCitations table address,
      address ≤ place.1 ∧ place.1 < address + 8 * table.length := by
  induction table generalizing address with
  | nil => simp [caseCitations]
  | cons entry rest ih =>
    intro place hplace
    rw [List.length_cons]
    rcases List.mem_append.1 hplace with hfirst | hrest
    · have hbounds := labelCitations_bounds entry.label place hfirst
      omega
    · have hbounds := ih place hrest
      omega

theorem reads_switchCases (table : List Case) (place : Nat)
    (hindex : CitesExactly index address (address + 8 * table.length)
      (caseCitations table address)) :
    Reads data (switchCases index table.length place) address
      (joined (Case.code filler) table address) (decodedCases table place address) := by
  induction table generalizing address place with
  | nil => exact reads_pure []
  | cons entry rest ih =>
    rw [List.length_cons] at hindex
    have hfirst : CitesExactly index address (address + 8) (entry.label.citations address) :=
      hindex.left (by omega) fun other hother ↦ (caseCitations_bounds rest other hother).1
    have hrest : CitesExactly index (address + 8) (address + 8 + 8 * rest.length)
        (caseCitations rest (address + 8)) := by
      have hbehind := hindex.right (by omega : address ≤ address + 8) fun other hother ↦
        (labelCitations_bounds entry.label other hother).2
      rwa [show address + 8 * ((rest.length + 1 : Nat) : Int) = address + 8 + 8 * rest.length by
        omega] at hbehind
    have hlast : decide (rest.length = 0) = rest.isEmpty := by
      cases rest <;> simp
    have hcase : Reads data (switchCase index (decide (rest.length = 0)) place) address
        (entry.code filler address) _ := reads_switchCase entry _ place hfirst
    rw [hlast] at hcase
    apply Reads.bind (by rw [hlast]; exact hcase)
    apply Reads.map (List.cons _)
    rw [length_caseCode]
    exact ih (place + 1) hrest

/-- The table of a switch: its cases in the order of their targets. -/
theorem reads_switchTable (table : List Case) (hshort : table.length < 0x80000000)
    (hindex : CitesExactly index (address + gap address 4 + 4)
      (address + gap address 4 + 4 + 8 * table.length)
      (caseCitations table (address + gap address 4 + 4))) :
    Reads data (switchTable index) address
      ((aligned filler 4 table.length).followedBy (joined (Case.code filler) table) address)
      ((decodedCases table 0 (address + gap address 4 + 4)).mergeSort
        fun a b ↦ a.target ≤ b.target) := by
  have hfits : FitsSigned 4 (table.length : Int) := by
    change -4294967296 ≤ 2 * (table.length : Int) ∧ 2 * (table.length : Int) < 4294967296
    omega
  have hstart : address + (padding filler (4 : Nat) address).length + (4 : Nat) =
      address + gap address 4 + 4 := by
    rw [length_padding filler address (by decide)]
    rfl
  have hpadding : Reads data alignWord address (padding filler (4 : Nat) address) () :=
    reads_alignWord
  rw [aligned, followedBy_assoc]
  apply hpadding.bind
  apply (reads_signed hfits).bind
  simp only [number, length_toLittleEndian, hstart, Int.toNat_natCast]
  exact (reads_switchCases table 0 hindex).map fun cases ↦
    cases.mergeSort fun a b ↦ a.target ≤ b.target

theorem reads_signedOperand {width : Nat} {value : Int} (hvalue : FitsSigned width value) :
    Reads data (do return [Operand.integer (← signed width)]) address (number width value address)
      ([.integer value] : List (Operand Symbol)) :=
  (reads_signed hvalue).map fun number ↦ [Operand.integer number]

theorem reads_unsignedOperand {width value : Nat} (hvalue : FitsUnsigned width value) :
    Reads data (do return [Operand.integer (← unsigned width)]) address
      (number width value address) ([.integer value] : List (Operand Symbol)) :=
  (reads_unsigned hvalue).map fun (number : Nat) ↦ [Operand.integer number]

theorem reads_negatedOperand {width value : Nat} (hvalue : FitsUnsigned width value) :
    Reads data (do return [Operand.integer (-(← unsigned width))]) address
      (number width value address) ([.integer (-value)] : List (Operand Symbol)) :=
  (reads_unsigned hvalue).map fun (number : Nat) ↦ [Operand.integer (-(number : Int))]

/-- The operands of an instruction are read back, given the texts that they point to. -/
theorem reads_operands {encoding : Encoding} (argument : Argument encoding)
    (hnames : ∀ place ∈ argument.names, Holds data place.1 (place.2 ++ [0]))
    (hindex : CitesExactly index address (address + (argument.code filler address).length)
      (argument.citations address)) :
    Reads data (operands id index encoding) address (argument.code filler address)
      (argument.decoded address) := by
  cases argument with
  | none => exact reads_pure []
  | signedByte value =>
    exact reads_signedOperand (fitsSigned_int8 value)
  | unsignedByte value =>
    exact reads_unsignedOperand (fitsUnsigned_uint8 value)
  | negatedByte value =>
    exact reads_negatedOperand (fitsUnsigned_uint8 value)
  | signedShort value =>
    apply reads_alignShort.bind
    exact reads_signedOperand (fitsSigned_int16 value)
  | unsignedShort value =>
    apply reads_alignShort.bind
    exact reads_unsignedOperand (fitsUnsigned_uint16 value)
  | negatedShort value =>
    apply reads_alignShort.bind
    exact reads_negatedOperand (fitsUnsigned_uint16 value)
  | signedWord value =>
    apply reads_alignWord.bind
    exact reads_signedOperand (fitsSigned_int32 value)
  | unsignedWord value =>
    apply reads_alignWord.bind
    exact reads_unsignedOperand (fitsUnsigned_uint32 value)
  | hash value => exact (reads_hashName .hash value).map fun entry ↦ [Operand.name .quoted entry]
  | real value =>
    apply reads_alignWord.bind
    exact (reads_f32 value).map fun number ↦ [Operand.real number]
  | vector x y z =>
    change Reads data _ address ((aligned filler 4 _).followedBy _ address) _
    rw [aligned, followedBy_assoc]
    apply reads_alignWord.bind
    apply (reads_f32 x).bind
    apply (reads_f32 y).bind
    exact (reads_f32 z).map fun last ↦ [Operand.vector x y last]
  | vectorFlags flags =>
    have hread : Reads data _ address (number 1 flags.toNat address) _ :=
      (reads_unsigned (fitsUnsigned_uint8 flags)).map fun found ↦
        ([.vector (axis found (2 ^ 5) (2 ^ 4)) (axis found (2 ^ 3) (2 ^ 2))
          (axis found (2 ^ 1) (2 ^ 0))] : List (Operand Symbol))
    simp only [axis_eq_direction] at hread
    exact hread
  | text content => exact (reads_citedText content hindex).map fun found ↦ [Operand.text found]
  | localizedText content =>
    exact (reads_citedText content hindex).map fun found ↦ [Operand.localizedText found]
  | animation pointer name hunbroken =>
    have hname : Holds data pointer.toInt (name ++ [0]) := hnames (pointer.toInt, name) (by
      simp [Argument.names])
    apply reads_alignWord.bind
    intro hheld
    apply bind_eq_ok.2
    refine ⟨_, _, reads_signed (fitsSigned_int32 pointer) hheld, ?_⟩
    exact bind_eq_ok.2 ⟨_, _, peekText_of_holds hunbroken hname, rfl⟩
  | variableName value =>
    exact (reads_hashName .variableName value).map fun entry ↦ [Operand.name .plain entry]
  | functionPointer value =>
    exact (reads_hashName .function value).map fun entry ↦ [Operand.name .reference entry]
  | call value =>
    apply (reads_unread 1).bind
    exact (reads_hashName .function value).map fun entry ↦ [Operand.name .plain entry]
  | countedCall count value =>
    apply (reads_unsigned (fitsUnsigned_uint8 count)).bind
    exact (reads_hashName .function value).map fun entry ↦
      [Operand.name .plain entry, .integer count.toNat]
  | variableList names hshort =>
    have hfits : FitsUnsigned 1 names.length := Nat.lt_succ_of_le hshort
    apply (reads_unsigned hfits).bind
    exact reads_repeated (variableCode filler) _ fun value _ offset ↦ reads_variableEntry value
  | cases table hshort =>
    have hnonneg : 0 ≤ gap address 4 := gap_nonneg address (by decide)
    have hlength : address + ((Argument.cases table hshort).code filler address).length =
        address + gap address 4 + 4 + 8 * table.length := by
      rw [Argument.code, length_followedBy, length_joined_caseCode]
      rw [Nat.cast_add, length_aligned filler address 4 _ (by decide)]
      push_cast
      omega
    rw [hlength] at hindex
    have htable : CitesExactly index (address + gap address 4 + 4)
        (address + gap address 4 + 4 + 8 * table.length)
        (caseCitations table (address + gap address 4 + 4)) := fun reference text hlow ↦
      hindex reference text (by omega)
    exact (reads_switchTable table hshort htable).map fun cases ↦ cases.map Operand.switchCase

variable (filler) in
theorem argumentCitations_bounds {encoding : Encoding} (argument : Argument encoding) :
    ∀ place ∈ argument.citations address,
      address ≤ place.1 ∧ place.1 < address + (argument.code filler address).length := by
  intro place hplace
  have hshort : 0 ≤ gap address 2 := gap_nonneg address (by decide)
  have hword : 0 ≤ gap address 4 := gap_nonneg address (by decide)
  have hslot (content : Option String) (hcited : place ∈ textCitations content address) :
      address ≤ place.1 ∧ place.1 < address +
        ((padding filler 2).followedBy (unread filler 2) address).length := by
    obtain ⟨text, _, rfl⟩ : ∃ text, content = some text ∧
        (address + gap address 2, text) = place := by
      simpa [textCitations] using hcited
    rw [length_followedBy, length_unread, Nat.cast_add, length_padding filler address (by decide)]
    push_cast
    omega
  cases argument with
  | text content => exact hslot content hplace
  | localizedText content => exact hslot content hplace
  | cases table hshort =>
    have hbounds := caseCitations_bounds table place hplace
    rw [Argument.code, length_followedBy, length_joined_caseCode, Nat.cast_add,
      length_aligned filler address 4 _ (by decide)]
    push_cast
    omega
  | _ => cases hplace

set_option maxRecDepth 2000 in
theorem ofByte?_code (opcode : Opcode) : Opcode.ofByte? opcode.code.toUInt8 = some opcode := by
  cases opcode <;> rfl

theorem fitsUnsigned_code (opcode : Opcode) : FitsUnsigned 1 opcode.code := by
  cases opcode <;> decide

variable (filler) in
theorem length_statementCode (statement : Statement) :
    (statement.code filler address).length =
      1 + (statement.argument.code filler (address + 1)).length := by
  rw [Statement.code, length_followedBy, length_number]
  rfl

variable (filler) in
theorem statementCitations_bounds (statement : Statement) :
    ∀ place ∈ statement.argument.citations (address + 1),
      address ≤ place.1 ∧ place.1 < address + (statement.code filler address).length := by
  intro place hplace
  have hbounds : address + 1 ≤ place.1 ∧
      place.1 < address + 1 + (statement.argument.code filler (address + 1)).length :=
    argumentCitations_bounds filler statement.argument place hplace
  rw [length_statementCode]
  push_cast
  omega

/-- One statement is decoded where it stands, from whatever position the reader had before. -/
theorem instruction_of_holds (statement : Statement) {position : Int}
    (hheld : Holds data address (statement.code filler address))
    (hnames : ∀ place ∈ statement.argument.names, Holds data place.1 (place.2 ++ [0]))
    (hindex : CitesExactly index address (address + (statement.code filler address).length)
      (statement.argument.citations (address + 1))) :
    instruction id index address (readerAt data position) =
      .ok (statement.decoded filler address)
        (readerAt data (address + (statement.code filler address).length)) := by
  have hlength : (statement.code filler address).length =
      1 + (statement.argument.code filler (address + 1)).length :=
    length_statementCode filler statement
  have hbyte : Reader.u8 (readerAt data address) =
      .ok statement.opcode.code (readerAt data (address + 1)) :=
    reads_unsigned (fitsUnsigned_code statement.opcode) hheld.left
  have hbehind : Holds data (address + 1) (statement.argument.code filler (address + 1)) :=
    hheld.right
  have hoperands := reads_operands statement.argument hnames
    (fun reference text hlow hhigh ↦ hindex reference text (by omega) (by
      rw [hlength]
      push_cast
      omega)) hbehind
  unfold instruction
  apply bind_eq_ok.2
  refine ⟨(), readerAt data address, seek_of_holds hheld, ?_⟩
  apply bind_eq_ok.2
  refine ⟨_, _, hbyte, ?_⟩
  rw [ofByte?_code]
  apply bind_eq_ok.2
  refine ⟨_, _, hoperands, ?_⟩
  apply bind_eq_ok.2
  refine ⟨_, _, rfl, ?_⟩
  have hstop : address + 1 + (statement.argument.code filler (address + 1)).length =
      address + (statement.code filler address).length := by
    rw [hlength]
    push_cast
    omega
  have hsize :
      (readerAt data (address + (statement.code filler address).length)).position - address =
        (statement.code filler address).length := by
    change address + _ - address = _
    omega
  rw [hstop, hsize]
  rfl

variable (filler) in
theorem citations_bounds (program : List Statement) :
    ∀ place ∈ citations filler program address, address ≤ place.1 := by
  induction program generalizing address with
  | nil => simp [citations]
  | cons statement rest ih =>
    intro place hplace
    rcases List.mem_append.1 hplace with hfirst | hrest
    · exact (statementCitations_bounds filler statement place hfirst).1
    · have hbound := ih place hrest
      omega

/-- The walk through assembled code yields its statements behind those that were decoded before. -/
theorem instructionsFrom_of_holds (program : List Statement) {position : Int}
    {found : Array (Instruction Symbol)}
    (hheld : Holds data address (code filler program address))
    (hnames : ∀ place ∈ names program, Holds data place.1 (place.2 ++ [0]))
    (hindex : CitesExactly index address (address + (code filler program address).length)
      (citations filler program address)) :
    ∃ last, instructionsFrom id index (address + (code filler program address).length) address
        found (readerAt data position) =
      .ok (found ++ (decoded filler program address).toArray) (readerAt data last) := by
  induction program generalizing address position found with
  | nil =>
    refine ⟨position, ?_⟩
    rw [instructionsFrom_of_le (by simp [code, joined])]
    simp [decoded]
  | cons statement rest ih =>
    have hlength : (code filler (statement :: rest) address).length =
        (statement.code filler address).length +
          (code filler rest (address + (statement.code filler address).length)).length :=
      List.length_append
    have hpositive : 0 < (statement.code filler address).length := by
      rw [length_statementCode]
      omega
    have hstop : address + (code filler (statement :: rest) address).length =
        address + (statement.code filler address).length +
          (code filler rest (address + (statement.code filler address).length)).length := by
      rw [hlength]
      push_cast
      omega
    rw [hstop] at hindex ⊢
    -- What is cited splits at the end of the first statement.
    have hfirst : instruction id index address (readerAt data position) = _ :=
      instruction_of_holds statement hheld.left
        (fun place hplace ↦
          hnames place (List.mem_flatMap.2 ⟨statement, List.mem_cons_self, hplace⟩))
        (hindex.left (by omega) (citations_bounds filler rest))
    have hbehind := hindex.right (by omega) fun place hplace ↦
      (statementCitations_bounds filler statement place hplace).2
    have hnamesRest : ∀ place ∈ names rest, Holds data place.1 (place.2 ++ [0]) := by
      intro place hplace
      obtain ⟨other, hother, hmember⟩ := List.mem_flatMap.1 hplace
      exact hnames place (List.mem_flatMap.2 ⟨other, List.mem_cons_of_mem _ hother, hmember⟩)
    have hnext : (statement.decoded filler address).stop =
        address + (statement.code filler address).length := rfl
    rw [instructionsFrom_of_ok (by omega) hfirst, hnext]
    obtain ⟨last, hrest⟩ := ih hheld.right hnamesRest hbehind
    refine ⟨last, hrest.trans ?_⟩
    simp [decoded]

/-- Decoding inverts assembling. Where a buffer holds the code of a program at some address,
whatever stands around it and in the bytes that are passed over, where the texts that the program
points to are in the buffer, and where the index cites, within the code, exactly the slots of the
program's texts, the function of that address and size is decoded into the statements of the
program, with whatever names the hashes in it get. -/
theorem functionCode_eq_decoded {ν : Type} (resolve : Symbol → ν) (filler : Int → UInt8)
    (program : List Statement) (data : ByteArray) (index : StringIndex)
    (function : String) (address position : Int)
    (hheld : Holds data address (code filler program address))
    (hnames : ∀ place ∈ names program, Holds data place.1 (place.2 ++ [0]))
    (hindex : CitesExactly index address (address + (code filler program address).length)
      (citations filler program address)) :
    ∃ last, functionCode resolve index function address (code filler program address).length
        (readerAt data position) =
      .ok ((decoded filler program address).map (Instruction.map resolve)).toArray
        (readerAt data last) := by
  obtain ⟨last, hwalk⟩ := instructionsFrom_of_holds program hheld hnames hindex
  have hsize : (0 : Int) ≤ (code filler program address).length := by omega
  have hcode : functionCode id index function address (code filler program address).length
      (readerAt data position) =
        .ok (#[] ++ (decoded filler program address).toArray) (readerAt data last) := by
    unfold functionCode
    rw [if_neg (by omega)]
    exact hwalk
  refine ⟨last, (functionCode_comp resolve id index hsize function function address _).trans ?_⟩
  rw [hcode]
  simp [mapResult]

/-- A text, a switch over a text and all other cases, the name of an animation, the name of a
function, and the end. -/
def sample : List Statement :=
  [⟨.getString, .text (some "a")⟩,
    ⟨.endSwitch, .cases [⟨.text "b", 4⟩, ⟨.number 0, -20⟩] (by decide)⟩,
    ⟨.getAnimation, .animation 0 [0x68, 0x69] (by decide)⟩,
    ⟨.getFunction, .functionPointer 42⟩, ⟨.halt, .none⟩]

/-- The sample behind the name that it points to, at an odd address. -/
def sampleBuffer : ByteArray :=
  ⟨([0x68, 0x69, 0] ++ code (fun _ ↦ 0xEE) sample 3 ++ [0xFF]).toArray⟩

def sampleIndex : StringIndex :=
  (∅ : StringIndex).insert 4 ⟨0, "a", [4]⟩ |>.insert 14 ⟨0, "b", [14]⟩

theorem citesExactly_sample :
    CitesExactly sampleIndex 3 45 (citations (fun _ ↦ 0xEE) sample 3) := by
  have hcitations : citations (fun _ ↦ 0xEE) sample 3 = [(4, "a"), (14, "b")] := by decide
  intro reference text _ _
  unfold StringIndex.text? sampleIndex
  rw [hcitations, Std.HashMap.getElem?_insert, Std.HashMap.getElem?_insert]
  by_cases hfirst : reference = 4
  · subst hfirst
    simp [eq_comm]
  · by_cases hsecond : reference = 14
    · subst hsecond
      simp [eq_comm]
    · simp [hfirst, hsecond, Ne.symm hfirst, Ne.symm hsecond]

/-- The sample is decoded with its slots cited at the addresses 4 and 14. -/
theorem functionCode_sample :
    ∃ last, functionCode (NameTable.nameOf ∅) sampleIndex "f" 3 42 (readerAt sampleBuffer 0) =
      .ok ((decoded (fun _ ↦ 0xEE) sample 3).map (Instruction.map (NameTable.nameOf ∅))).toArray
        (readerAt sampleBuffer last) := by
  apply functionCode_eq_decoded (NameTable.nameOf ∅) (fun _ ↦ 0xEE) sample
  · exact holds_of_append [0x68, 0x69, 0] (code (fun _ ↦ 0xEE) sample 3) [0xFF]
  · intro place hplace
    obtain rfl : place = (0, [0x68, 0x69]) := by simpa [names, sample, Argument.names] using hplace
    exact holds_of_append [] [0x68, 0x69, 0] (code (fun _ ↦ 0xEE) sample 3 ++ [0xFF])
  · exact citesExactly_sample

end CompiledScript.Assembly
