import CompiledScript.Listing
import CompiledScript.Proofs.Names.NormalForm

/-!
# Line feeds in the pieces of a listing

A listing is put together from fixed words, numbers, names and texts. The words and the numbers hold
no line feed, and neither does a name that was read from a table or made up for a hash; so the feeds
of a piece are those of the texts that it shows as they are.
-/

namespace CompiledScript.Text

def feeds (text : String) : Nat :=
  text.toList.count '\n'

/-- A measure of texts, summed over several texts. -/
def total (measure : String → Nat) : List String → Nat
  | [] => 0
  | text :: rest => measure text + total measure rest

theorem feeds_eq_zero_iff {text : String} : feeds text = 0 ↔ '\n' ∉ text.toList :=
  List.count_eq_zero

theorem feeds_ofList {characters : List Char} (h : '\n' ∉ characters) :
    feeds (String.ofList characters) = 0 := by
  simpa [feeds_eq_zero_iff] using h

@[simp]
theorem feeds_append (first second : String) :
    feeds (first ++ second) = feeds first + feeds second := by
  simp [feeds]

section Total

variable (measure : String → Nat)

@[simp]
theorem total_nil : total measure [] = 0 :=
  rfl

@[simp]
theorem total_cons (text : String) (rest : List String) :
    total measure (text :: rest) = measure text + total measure rest :=
  rfl

@[simp]
theorem total_append (first second : List String) :
    total measure (first ++ second) = total measure first + total measure second := by
  induction first with
  | nil => simp
  | cons text rest ih => simp [ih, Nat.add_assoc]

theorem total_eq_zero_iff {texts : List String} :
    total measure texts = 0 ↔ ∀ text ∈ texts, measure text = 0 := by
  induction texts with
  | nil => simp
  | cons text rest ih => simp [ih]

theorem total_congr {measure other : String → Nat} {texts : List String}
    (h : ∀ text ∈ texts, measure text = other text) :
    total measure texts = total other texts := by
  induction texts with
  | nil => rfl
  | cons text rest ih =>
    rw [List.forall_mem_cons] at h
    simp [h.1, ih h.2]

end Total

/-- A separator without a feed adds none. -/
theorem feeds_intercalate {separator : String} (h : feeds separator = 0) (texts : List String) :
    feeds (separator.intercalate texts) = total feeds texts := by
  induction texts with
  | nil => simp [feeds]
  | cons text rest ih =>
    cases rest with
    | nil => simp [feeds]
    | cons next others =>
      unfold feeds at h ih ⊢
      rw [String.toList_intercalate] at ih ⊢
      simp_all [List.intercalate_cons_cons]

/-- If each piece has the feeds of its own texts, then the pieces have those of all texts. -/
theorem total_feeds_map {α : Type} {piece : α → String} {texts : α → List String}
    (h : ∀ item, feeds (piece item) = total feeds (texts item)) (items : List α) :
    total feeds (items.map piece) = total feeds (items.flatMap texts) := by
  induction items with
  | nil => rfl
  | cons item rest ih => simp [h, ih]

/-! ## Numerals -/

theorem feed_not_mem_digits (letters : Hex.Letters) (value : Nat) :
    '\n' ∉ Hex.digits letters value := by
  intro hfeed
  cases isHexDigit_of_mem_digits letters value '\n' hfeed

@[simp]
theorem feeds_padded (letters : Hex.Letters) (width : Nat) (value : Int) :
    feeds (Hex.padded letters width value) = 0 := by
  have hdigits := feed_not_mem_digits letters value.natAbs
  unfold Hex.padded
  split <;> exact feeds_ofList (by simp [Hex.fill, hdigits])

@[simp]
theorem feeds_numeral (letters : Hex.Letters) (value : Int) :
    feeds (Hex.numeral letters value) = 0 :=
  feeds_padded letters 0 value

@[simp]
theorem feeds_offset (value : Int) : feeds (Hex.offset value) = 0 := by
  rw [Hex.offset, feeds_append, feeds_numeral]
  rfl

@[simp]
theorem feeds_checksum (value : Int) : feeds (Hex.checksum value) = 0 := by
  rw [Hex.checksum, feeds_append, feeds_padded]
  rfl

@[simp]
theorem feeds_address (value : Int) : feeds (Hex.address value) = 0 :=
  feeds_padded .lower 8 value

theorem feed_not_mem_decimal (value : Nat) : '\n' ∉ Nat.toDigits 10 value := by
  have hdigits : ∀ c ∈ Nat.toDigits 10 value, c ≠ '\n' :=
    forall_mem_toDigits (by decide) (by decide) value
  exact fun hfeed ↦ hdigits '\n' hfeed rfl

@[simp]
theorem feeds_toString_nat (value : Nat) : feeds (toString value) = 0 :=
  feeds_ofList (feed_not_mem_decimal value)

@[simp]
theorem feeds_toString_int (value : Int) : feeds (toString value) = 0 := by
  cases value with
  | ofNat magnitude => exact feeds_toString_nat magnitude
  | negSucc magnitude =>
    change feeds ("-" ++ toString (magnitude + 1)) = 0
    rw [feeds_append, feeds_toString_nat]
    rfl

end CompiledScript.Text

namespace CompiledScript.Number

open Text

/-! ## Significant digits -/

namespace Decimal

theorem feed_not_mem_fractionText {digits : List Char} (h : '\n' ∉ digits) :
    '\n' ∉ fractionText digits := by
  have hkept : '\n' ∉ dropTrailingZeros digits := by
    intro hfeed
    have hreverse := (List.dropWhile_sublist _).subset (List.mem_reverse.1 hfeed)
    exact h (List.mem_reverse.1 hreverse)
  unfold fractionText
  split
  · exact List.not_mem_nil
  · simpa using hkept

theorem feed_not_mem_powerText (power : Int) : '\n' ∉ powerText power := by
  have hdigits := feed_not_mem_decimal power.natAbs
  unfold powerText
  split <;> simp [hdigits]

theorem feed_not_mem_text {d : Decimal} (h : '\n' ∉ d.digits) : '\n' ∉ d.text := by
  have htake (count : Nat) : '\n' ∉ d.digits.take count :=
    fun hfeed ↦ h (List.mem_of_mem_take hfeed)
  have hdrop (count : Nat) : '\n' ∉ fractionText (d.digits.drop count) :=
    feed_not_mem_fractionText fun hfeed ↦ h (List.mem_of_mem_drop hfeed)
  unfold text positional exponential
  split
  · split
    · refine List.not_mem_cons_of_ne_of_not_mem (by decide) (feed_not_mem_fractionText ?_)
      simp [h]
    · exact List.not_mem_append (htake _) (hdrop _)
  · exact List.not_mem_append (List.not_mem_append (htake 1) (hdrop 1)) (feed_not_mem_powerText _)

end Decimal

theorem feed_not_mem_nearest (numerator denominator : Nat) :
    '\n' ∉ (nearest numerator denominator).digits := by
  unfold nearest
  dsimp only
  split
  · exact feed_not_mem_decimal (Nat.pow 10 (precision - 1))
  · exact feed_not_mem_decimal (roundHalfEven _ _)

theorem feed_not_mem_magnitudeText (significand : Nat) (exponent : Int) :
    '\n' ∉ magnitudeText significand exponent := by
  unfold magnitudeText
  split
  · decide
  · split <;> exact Decimal.feed_not_mem_text (feed_not_mem_nearest _ _)

end CompiledScript.Number

namespace CompiledScript.Listing

open Text

@[simp]
theorem feeds_text_binary32 (x : Binary32) : feeds x.text = 0 := by
  have hsign : '\n' ∉ if x.isNegative then ['-'] else [] := by split <;> decide
  unfold Binary32.text
  dsimp only
  split
  · rename_i significand exponent _
    refine feeds_ofList (List.not_mem_append hsign ?_)
    exact Number.feed_not_mem_magnitudeText significand exponent
  · exact feeds_ofList (List.not_mem_append hsign (by decide))
  · rfl

@[simp]
theorem feeds_mnemonic (opcode : Opcode) : feeds opcode.mnemonic = 0 := by
  cases opcode <;> exact feeds_ofList (by decide)

/-! ## Names -/

/-- Every name of the context was read from some table. -/
def NamesAreRead (context : NameContext) : Prop :=
  ∀ (tag : String) (hash : Int) (name : String), (context.tableFor tag)[hash]? = some name →
    ∃ source text, (Names.parseTable source text).2[hash]? = some name

theorem feeds_eq_zero_of_parseTable {source text name : String} {hash : Int}
    (h : (Names.parseTable source text).2[hash]? = some name) : feeds name = 0 := by
  have hpair := Std.ExtTreeMap.mem_toList_iff_getElem?_eq_some.2 h
  obtain ⟨entry, hnormal, hentry⟩ := Names.exists_isNormal_of_mem hpair
  obtain rfl : entry.name = name := congrArg Prod.snd hentry
  refine feeds_eq_zero_iff.2 fun hfeed ↦ ?_
  cases hnormal.inName '\n' hfeed

theorem feeds_nameOf {context : NameContext} (h : NamesAreRead context) (tag : String)
    (symbol : Symbol) : feeds ((context.tableFor tag).nameOf symbol) = 0 := by
  unfold NameTable.nameOf NameTable.resolve
  split
  · rename_i name hname
    obtain ⟨source, text, hread⟩ := h tag _ name hname
    exact feeds_eq_zero_of_parseTable hread
  · rw [feeds_append, feeds_numeral]
    cases symbol.kind <;> rfl

/-! ## Shown texts -/

def textsOfLabel : CaseLabel → List String
  | .text content => [content]
  | .value _ | .otherwise => []

def textsOfOperand : Operand String → List String
  | .text content | .localizedText content | .animation content => [content]
  | .switchCase value => textsOfLabel value.label
  | .integer _ | .real _ | .vector _ _ _ | .name _ _ => []

/-- The texts that the line of an instruction shows as they are. If there are cases, then nothing
else is shown. -/
def shownTexts (found : Instruction String) : List String :=
  match casesOf found.operands with
  | [] => found.operands.flatMap textsOfOperand
  | cases => cases.flatMap fun value ↦ textsOfLabel value.label

theorem feeds_display (label : CaseLabel) :
    feeds label.display = total feeds (textsOfLabel label) := by
  cases label with
  | value number => exact feeds_toString_int number
  | text content => simp [CaseLabel.display, textsOfLabel, feeds]
  | otherwise => rfl

variable {nameOf : Symbol → String}

theorem feeds_operand (h : ∀ symbol, feeds (nameOf symbol) = 0) (value : Operand Symbol) :
    feeds (operand (value.map nameOf)) = total feeds (textsOfOperand (value.map nameOf)) := by
  cases value with
  | integer number => exact feeds_toString_int number
  | real number => exact feeds_text_binary32 number
  | vector x y z =>
    simp only [Operand.map, operand, textsOfOperand, feeds_append, feeds_text_binary32]
    rfl
  | text content | localizedText content | animation content =>
    simp [Operand.map, operand, textsOfOperand, feeds]
  | name decoration symbol =>
    have hname := h symbol
    cases decoration <;> simp_all [Operand.map, operand, textsOfOperand, Decoration.apply, feeds]
  | switchCase value => exact feeds_display value.label

theorem feeds_switchCase (value : SwitchCase) :
    feeds (switchCase value) = total feeds (textsOfLabel value.label) := by
  rw [switchCase, feeds_append, feeds_append, feeds_display, feeds_address]
  rfl

/-- What the line of an instruction starts with. -/
def opening (found : Instruction String) : String :=
  "  " ++ Hex.address found.offset ++ ": " ++ found.opcode.mnemonic

/-- The part of a line that shows where an instruction may go to. -/
def destination (found : Instruction String) : String :=
  match found.target? with
  | some target => " (to " ++ Hex.address target ++ ")"
  | none => ""

@[simp]
theorem feeds_opening (found : Instruction String) : feeds (opening found) = 0 := by
  simp only [opening, feeds_append, feeds_address, feeds_mnemonic]
  rfl

@[simp]
theorem feeds_destination (found : Instruction String) : feeds (destination found) = 0 := by
  unfold destination
  split
  · simp only [feeds_append, feeds_address]
    rfl
  · rfl

section Instruction

variable {found : Instruction String}

theorem instruction_of_no_operands (h : found.operands = []) :
    instruction found = opening found ++ "" ++ destination found := by
  unfold instruction
  rw [h]
  rfl

theorem instruction_of_operands (hcases : casesOf found.operands = []) (h : found.operands ≠ []) :
    instruction found = opening found ++ (" " ++ ", ".intercalate (found.operands.map operand)) ++
      destination found := by
  unfold instruction
  rw [hcases]
  simp only [List.isEmpty_iff, h, if_false]
  rfl

theorem instruction_of_cases (h : casesOf found.operands ≠ []) :
    instruction found = opening found ++ " [" ++
      ", ".intercalate ((casesOf found.operands).map switchCase) ++ "]" := by
  unfold instruction
  split
  · contradiction
  · rfl

end Instruction

/-- The line of an instruction has the feeds of the texts that it shows. -/
theorem feeds_instruction (h : ∀ symbol, feeds (nameOf symbol) = 0) (found : Instruction Symbol) :
    feeds (instruction (found.map nameOf)) = total feeds (shownTexts (found.map nameOf)) := by
  have hoperands : total feeds ((found.map nameOf).operands.map operand) =
      total feeds ((found.map nameOf).operands.flatMap textsOfOperand) := by
    simp only [Instruction.map, List.map_map, List.flatMap_map]
    exact total_feeds_map (feeds_operand h) found.operands
  generalize found.map nameOf = named at hoperands
  have hcomma : feeds ", " = 0 := rfl
  by_cases hcases : casesOf named.operands = []
  · have hshown : shownTexts named = named.operands.flatMap textsOfOperand := by
      rw [shownTexts, hcases]
    rw [hshown, ← hoperands]
    by_cases hnone : named.operands = []
    · rw [instruction_of_no_operands hnone, hnone]
      simp
    · have hblank : feeds " " = 0 := rfl
      rw [instruction_of_operands hcases hnone]
      simp [feeds_intercalate hcomma, hblank]
  · have hshown : shownTexts named = (casesOf named.operands).flatMap fun value ↦
        textsOfLabel value.label := by
      unfold shownTexts
      split
      · contradiction
      · rfl
    have hbrackets : feeds " [" = 0 ∧ feeds "]" = 0 := ⟨rfl, rfl⟩
    rw [instruction_of_cases hcases, hshown, ← total_feeds_map feeds_switchCase]
    simp [feeds_intercalate hcomma, hbrackets]

end CompiledScript.Listing
