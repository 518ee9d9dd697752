import CompiledScript.Proofs.Reader.Reads
import CompiledScript.Proofs.Script.CitedTexts
import CompiledScript.Proofs.Text.Numerals

/-!
# Switch tables are read as they are stored

A table is a count at a multiple of four and, behind it, one slot of eight bytes for each case: what
selects the case and the distance to its target. `storedCase` says what the case in a slot is, from
the bytes and the citations of this slot alone. The reader, which moves through the table, yields
these cases and ends behind the last slot, for every table that lies in the buffer.

The cases are then sorted by their targets. The sort is stable, so the place in the table decides
between cases with the same target, and the order is determined. At most the last case of a table is
the default, and a text never makes it one, whatever the text is.
-/

namespace CompiledScript

/-! ## Sorting -/

/-- A stable sort leaves elements that compare equal in the order in which they came. -/
theorem pairwise_mergeSort_stable {α : Type} {le : α → α → Bool} {before : α → α → Prop}
    (htrans : ∀ a b c, le a b = true → le b c = true → le a c = true)
    (htotal : ∀ a b, (le a b || le b a) = true) {l : List α} (h : l.Pairwise before) :
    (l.mergeSort le).Pairwise fun a b ↦ le a b = true ∧ (le b a = true → before a b) := by
  induction l with
  | nil => simp
  | cons a rest ih =>
    obtain ⟨hfirst, hrest⟩ := List.pairwise_cons.1 h
    -- the new element goes behind those that come strictly first, and in front of all others
    obtain ⟨smaller, larger, hwhole, hsorted, hsmaller⟩ := List.mergeSort_cons htrans htotal a rest
    have hle := List.pairwise_mergeSort htrans htotal (a :: rest)
    rw [hwhole, List.pairwise_append, List.pairwise_cons] at hle ⊢
    have hparts := ih hrest
    rw [hsorted, List.pairwise_append] at hparts
    refine ⟨hparts.1, ⟨?_, hparts.2.1⟩, ?_⟩
    · intro b hb
      have hmember : b ∈ rest.mergeSort le := hsorted ▸ List.mem_append_right smaller hb
      exact ⟨hle.2.1.1 b hb, fun _ ↦ hfirst b (List.mem_mergeSort.1 hmember)⟩
    · intro b hb c hc
      rcases List.mem_cons.1 hc with rfl | hlarger
      · refine ⟨hle.2.2 b hb c List.mem_cons_self, fun hback ↦ ?_⟩
        have hstrict := hsmaller b hb
        rw [hback] at hstrict
        cases hstrict
      · exact hparts.2.2 b hb c hlarger

/-! ## Labels -/

deriving instance DecidableEq for SwitchCase

/-- The case is shown as the one for everything that is not listed. -/
def SwitchCase.IsDefault (entry : SwitchCase) : Prop :=
  entry.label.display = "default"

instance (entry : SwitchCase) : Decidable entry.IsDefault :=
  inferInstanceAs (Decidable (_ = _))

/-- Neither a number nor a text in quotation marks reads like the default. -/
theorem CaseLabel.display_eq_default_iff (label : CaseLabel) :
    label.display = "default" ↔ label = .otherwise := by
  cases label with
  | otherwise => exact ⟨fun _ ↦ rfl, fun _ ↦ rfl⟩
  | text content =>
    refine ⟨fun h ↦ ?_, fun h ↦ nomatch h⟩
    have hhead := congrArg (fun text ↦ text.toList.head?) h
    simp [CaseLabel.display] at hhead
  | value number =>
    refine ⟨fun h ↦ ?_, fun h ↦ nomatch h⟩
    cases number with
    | ofNat magnitude =>
      have hdigits : ∀ c ∈ Nat.toDigits 10 magnitude, c ≠ 'd' :=
        Text.forall_mem_toDigits (by decide) (by decide) magnitude
      have hchars : (String.ofList (Nat.toDigits 10 magnitude)).toList = "default".toList :=
        congrArg String.toList h
      rw [String.toList_ofList] at hchars
      exact absurd rfl (hdigits 'd' (by rw [hchars]; decide))
    | negSucc magnitude =>
      have hminus : "-" ++ toString (magnitude + 1) = "default" := h
      have hhead := congrArg (fun text ↦ text.toList.head?) hminus
      simp at hhead

namespace Script

open Reader

variable {data : ByteArray} {index : StringIndex} {position start slot first count : Int}

/-- The label of a case, from the text that is cited in its slot and the number that stands
there. -/
def storedLabel (cited? : Option String) (isLast : Bool) (number : Int) : CaseLabel :=
  match cited? with
  | some content => .text content
  | none => if number = 0 ∧ isLast then .otherwise else .value number

/-- The case at a place of a table with the given count, whose slots start at address `first`. -/
def storedCase (text? : Int → Option String) (data : ByteArray) (first count : Int) (place : Nat) :
    SwitchCase :=
  let slot := first + 8 * place
  { label := storedLabel (text? (slot + 2)) (place = count - 1) (signedAt data 4 slot)
    target := (slot + 4) + signedAt data 4 (slot + 4) + 4
    index := place }

/-! ## Reading -/

theorem position_of_alignWord {value : Unit} {r : Reader}
    (hstart : aligned? position 4 = some start)
    (h : alignWord (readerAt data position) = .ok value r) : r = readerAt data start := by
  have hpadding : padding? (readerAt data position).position 4 = some (paddingTo position 4) := rfl
  obtain rfl : position + paddingTo position 4 = start := Option.some.inj hstart
  obtain ⟨count, behind, halign, hpure⟩ := bind_eq_ok.1 h
  cases hpure
  obtain ⟨_, _, hget, hmove⟩ := bind_eq_ok.1 halign
  cases hget
  rw [hpadding] at hmove
  dsimp only at hmove
  split at hmove
  · rename_i hzero
    cases hmove
    rw [hzero, Int.add_zero]
  · obtain ⟨_, _, hskip, hcount⟩ := bind_eq_ok.1 hmove
    obtain ⟨_, _, _, _, rfl⟩ := skip_eq_ok.1 hskip
    cases hcount
    rfl

theorem alignWord_of_inside (hstart : aligned? position 4 = some start) (hlow : 0 ≤ start)
    (hhigh : start ≤ data.size) :
    alignWord (readerAt data position) = .ok () (readerAt data start) := by
  have hpadding : padding? (readerAt data position).position 4 = some (paddingTo position 4) := rfl
  obtain rfl : position + paddingTo position 4 = start := Option.some.inj hstart
  apply bind_eq_ok.2
  refine ⟨paddingTo position 4, readerAt data (position + paddingTo position 4), ?_, rfl⟩
  refine bind_eq_ok.2 ⟨_, _, rfl, ?_⟩
  rw [hpadding]
  dsimp only
  split
  · rename_i hzero
    rw [hzero, Int.add_zero]
    rfl
  · exact bind_eq_ok.2 ⟨(), _, skip_eq_ok.2 ⟨data, rfl, hlow, hhigh, rfl⟩, rfl⟩

theorem caseLabel_readerAt_eq_ok {isLast : Bool} {label : CaseLabel} {r : Reader}
    (hslot : 0 ≤ slot) :
    caseLabel index isLast (readerAt data slot) = .ok label r ↔
      slot + 4 ≤ data.size ∧
      label = storedLabel (index.text? (slot + 2)) isLast (signedAt data 4 slot) ∧
      r = readerAt data (slot + 4) := by
  have hplace : index.text? ((readerAt data slot).position + 2) = index.text? (slot + 2) := rfl
  unfold caseLabel
  rw [bind_eq_ok]
  cases hcited : index.text? (slot + 2) with
  | some content =>
    rw [hcited] at hplace
    constructor
    · rintro ⟨_, _, hget, h⟩
      cases hget
      rw [hplace] at h
      obtain ⟨_, _, hskip, hlabel⟩ := bind_eq_ok.1 h
      obtain ⟨_, hdata, _, hinside, rfl⟩ := skip_eq_ok.1 hskip
      cases hdata
      cases hlabel
      exact ⟨hinside, rfl, rfl⟩
    · rintro ⟨hinside, rfl, rfl⟩
      have hlow : 0 ≤ slot + 4 := by omega
      refine ⟨_, _, rfl, ?_⟩
      rw [hplace]
      exact bind_eq_ok.2 ⟨(), _, skip_eq_ok.2 ⟨data, rfl, hlow, hinside, rfl⟩, rfl⟩
  | none =>
    rw [hcited] at hplace
    constructor
    · rintro ⟨_, _, hget, h⟩
      cases hget
      rw [hplace] at h
      obtain ⟨_, _, hnumber, hlabel⟩ := bind_eq_ok.1 h
      obtain ⟨rfl, _, hinside, rfl⟩ := signed_readerAt_eq_ok hnumber
      cases hlabel
      exact ⟨hinside, rfl, rfl⟩
    · rintro ⟨hinside, rfl, rfl⟩
      refine ⟨_, _, rfl, ?_⟩
      rw [hplace]
      exact bind_eq_ok.2 ⟨_, _, signed_readerAt_of_inside hslot hinside, rfl⟩

/-- A case is read if and only if its slot lies in the buffer. -/
theorem switchCase_readerAt_eq_ok {place : Nat} {isLast : Bool} {entry : SwitchCase} {r : Reader}
    (hfirst : 0 ≤ first) (hlast : isLast = decide ((place : Int) = count - 1)) :
    switchCase index isLast place (readerAt data (first + 8 * place)) = .ok entry r ↔
      first + 8 * (place + 1) ≤ data.size ∧
      entry = storedCase index.text? data first count place ∧
      r = readerAt data (first + 8 * (place + 1)) := by
  have hslot : 0 ≤ first + 8 * (place : Int) := by omega
  have hend : first + 8 * (place : Int) + 4 + (4 : Nat) = first + 8 * (place + 1) := by omega
  subst hlast
  unfold switchCase
  rw [bind_eq_ok]
  constructor
  · rintro ⟨label, _, hlabel, h⟩
    obtain ⟨_, rfl, rfl⟩ := (caseLabel_readerAt_eq_ok hslot).1 hlabel
    obtain ⟨_, _, hget, h⟩ := bind_eq_ok.1 h
    cases hget
    obtain ⟨_, _, hdistance, hentry⟩ := bind_eq_ok.1 h
    obtain ⟨rfl, _, hinside, rfl⟩ := signed_readerAt_eq_ok hdistance
    cases hentry
    rw [hend] at hinside ⊢
    exact ⟨hinside, rfl, rfl⟩
  · rintro ⟨hinside, rfl, rfl⟩
    refine ⟨_, _, (caseLabel_readerAt_eq_ok hslot).2 ⟨by omega, rfl, rfl⟩, ?_⟩
    refine bind_eq_ok.2 ⟨_, _, rfl, bind_eq_ok.2 ⟨_, _, signed_readerAt_of_inside ?_ ?_, ?_⟩⟩
    · omega
    · omega
    · rw [hend]
      rfl

theorem switchCases_readerAt_eq_ok {left place : Nat} {cases : List SwitchCase} {r : Reader}
    (hfirst : 0 ≤ first) (hinside : first + 8 * place ≤ data.size)
    (hcount : place + left = count.toNat) :
    switchCases index left place (readerAt data (first + 8 * place)) = .ok cases r ↔
      first + 8 * count.toNat ≤ data.size ∧
      cases = (List.range' place left).map
        (storedCase index.text? data first count) ∧
      r = readerAt data (first + 8 * count.toNat) := by
  induction left generalizing place cases with
  | zero =>
    rw [← hcount, Nat.add_zero]
    constructor
    · intro h
      cases h
      exact ⟨hinside, rfl, rfl⟩
    · rintro ⟨_, rfl, rfl⟩
      rfl
  | succ left ih =>
    have hlast : decide (left = 0) = decide ((place : Int) = count - 1) :=
      decide_eq_decide.2 (by omega)
    rw [switchCases, bind_eq_ok]
    constructor
    · rintro ⟨entry, _, hread, h⟩
      obtain ⟨hslot, rfl, rfl⟩ := (switchCase_readerAt_eq_ok hfirst hlast).1 hread
      obtain ⟨rest, _, hrest, hcases⟩ := bind_eq_ok.1 h
      cases hcases
      obtain ⟨hbehind, rfl, rfl⟩ := (ih (by omega) (by omega)).1 hrest
      exact ⟨hbehind, rfl, rfl⟩
    · rintro ⟨hbehind, rfl, rfl⟩
      refine ⟨_, _, (switchCase_readerAt_eq_ok hfirst hlast).2 ⟨by omega, rfl, rfl⟩, ?_⟩
      exact bind_eq_ok.2 ⟨_, _, (ih (by omega) (by omega)).2 ⟨hbehind, rfl, rfl⟩, rfl⟩

/-- A table is read if and only if all of it lies in the buffer. -/
theorem switchTable_readerAt_eq_ok {cases : List SwitchCase} {r : Reader}
    (hstart : aligned? position 4 = some start) (hcount : signedAt data 4 start = count) :
    switchTable index (readerAt data position) = .ok cases r ↔
      0 ≤ start ∧ start + 4 + 8 * count.toNat ≤ data.size ∧
      cases = ((List.range count.toNat).map
        (storedCase index.text? data (start + 4) count)).mergeSort
          (fun a b ↦ a.target ≤ b.target) ∧
      r = readerAt data (start + 4 + 8 * count.toNat) := by
  subst hcount
  -- the slots begin with the one at place zero
  have hfirst : start + (4 : Nat) = start + 4 + 8 * (0 : Nat) := by omega
  unfold switchTable
  rw [bind_eq_ok, List.range_eq_range']
  constructor
  · rintro ⟨_, _, halign, h⟩
    obtain rfl := position_of_alignWord hstart halign
    obtain ⟨_, _, hnumber, h⟩ := bind_eq_ok.1 h
    obtain ⟨rfl, hlow, hhigh, rfl⟩ := signed_readerAt_eq_ok hnumber
    obtain ⟨_, _, hread, hsorted⟩ := bind_eq_ok.1 h
    rw [hfirst] at hread hhigh
    obtain ⟨hinside, rfl, rfl⟩ :=
      (switchCases_readerAt_eq_ok (by omega) hhigh (Nat.zero_add _)).1 hread
    cases hsorted
    exact ⟨hlow, hinside, rfl, rfl⟩
  · rintro ⟨hlow, hinside, rfl, rfl⟩
    refine ⟨(), _, alignWord_of_inside hstart hlow (by omega), ?_⟩
    refine bind_eq_ok.2 ⟨_, _, signed_readerAt_of_inside hlow (by omega), ?_⟩
    refine bind_eq_ok.2 ⟨_, _, ?_, rfl⟩
    rw [hfirst]
    exact (switchCases_readerAt_eq_ok (by omega) (by omega) (Nat.zero_add _)).2 ⟨hinside, rfl, rfl⟩

/-! ## Order and default -/

section

variable {text? : Int → Option String} {places : Nat}

/-- A case comes before another if it leads to a lower address, or to the same address from a lower
place. -/
def Precedes (a b : SwitchCase) : Prop :=
  a.target < b.target ∨ a.target = b.target ∧ a.index < b.index

instance (a b : SwitchCase) : Decidable (Precedes a b) :=
  inferInstanceAs (Decidable (_ ∨ _))

/-- There is only one way to put cases into this order. -/
theorem eq_of_perm_of_precedes {left right : List SwitchCase} (hleft : left.Pairwise Precedes)
    (hright : right.Pairwise Precedes) (h : left.Perm right) : left = right := by
  refine h.eq_of_pairwise (fun a b _ _ hab hba ↦ ?_) hleft hright
  unfold Precedes at hab hba
  omega

theorem pairwise_precedes_storedCases :
    (((List.range places).map (storedCase text? data first count)).mergeSort
      (fun a b ↦ a.target ≤ b.target)).Pairwise Precedes := by
  have hplaces : ((List.range places).map (storedCase text? data first count)).Pairwise
      fun a b ↦ a.index < b.index :=
    List.pairwise_map.2 List.pairwise_lt_range
  refine (pairwise_mergeSort_stable ?_ ?_ hplaces).imp fun {a b} hab ↦ ?_
  · intro a b c hab hbc
    exact decide_eq_true (Int.le_trans (of_decide_eq_true hab) (of_decide_eq_true hbc))
  · intro a b
    simpa using Int.le_total a.target b.target
  · obtain ⟨hle, hsame⟩ := hab
    rw [decide_eq_true_eq] at hle hsame
    rcases Int.lt_or_eq_of_le hle with hlt | heq
    · exact .inl hlt
    · exact .inr ⟨heq, hsame heq.ge⟩

theorem display_storedCase (place : Nat) :
    (storedCase text? data first count place).label.display =
      (text? (first + 8 * place + 2)).elim
        (if signedAt data 4 (first + 8 * place) = 0 ∧ (place : Int) = count - 1 then "default"
          else toString (signedAt data 4 (first + 8 * place)))
        (fun content ↦ "\"" ++ content ++ "\"") := by
  rw [storedCase]
  cases text? (first + 8 * place + 2) with
  | some content => rfl
  | none =>
    simp only [storedLabel, decide_eq_true_eq, Option.elim_none]
    split <;> rfl

/-- Only a zero without a citation in the last slot is the default. -/
theorem isDefault_storedCase_iff (place : Nat) :
    (storedCase text? data first count place).IsDefault ↔
      text? (first + 8 * place + 2) = none ∧ (place : Int) = count - 1 ∧
      signedAt data 4 (first + 8 * place) = 0 := by
  rw [SwitchCase.IsDefault, CaseLabel.display_eq_default_iff, storedCase]
  cases text? (first + 8 * place + 2) with
  | some content => simp [storedLabel]
  | none => simp [storedLabel, and_comm]

theorem countP_isDefault_storedCases :
    ((List.range places).map (storedCase text? data first count)).countP
      (fun entry ↦ entry.IsDefault) ≤ 1 := by
  rw [List.countP_map]
  calc
    (List.range places).countP _ ≤ (List.range places).countP (· == (count - 1).toNat) := by
      refine List.countP_mono_left fun place _ hdefault ↦ ?_
      have hlast := ((isDefault_storedCase_iff place).1 (of_decide_eq_true hdefault)).2.1
      exact beq_iff_eq.2 (by omega)
    _ ≤ 1 := List.nodup_iff_count.1 List.nodup_range _

end

/-! ## The table as a whole -/

/-- A table that is read holds the cases of its slots, each once. They are in the order of their
targets and, where these agree, of their places. The labels are those of the slots, and at most one
case is the default, which no text makes. -/
theorem switchTable_reconstructs_slots (strings : Array StringEntry) (data : ByteArray)
    (position : Int) (cases : List SwitchCase) (r : Reader)
    (h : switchTable (Session.indexOf strings) (readerAt data position) = .ok cases r) :
    ∃ start, aligned? position 4 = some start ∧
      r = readerAt data (start + 4 + 8 * max (signedAt data 4 start) 0) ∧
      cases.Perm ((List.range (signedAt data 4 start).toNat).map
        (storedCase (Session.textCiting? strings) data (start + 4) (signedAt data 4 start))) ∧
      (cases.map (·.index)).Perm (List.range (signedAt data 4 start).toNat) ∧
      cases.Pairwise Precedes ∧
      (∀ entry ∈ cases, entry.label.display =
        (Session.textCiting? strings (start + 4 + 8 * entry.index + 2)).elim
          (if signedAt data 4 (start + 4 + 8 * entry.index) = 0 ∧
              (entry.index : Int) = signedAt data 4 start - 1 then "default"
            else toString (signedAt data 4 (start + 4 + 8 * entry.index)))
          (fun content ↦ "\"" ++ content ++ "\"")) ∧
      cases.countP (fun entry ↦ entry.IsDefault) ≤ 1 ∧
      ∀ entry ∈ cases, (Session.textCiting? strings (start + 4 + 8 * entry.index + 2)).isSome →
        ¬ entry.IsDefault := by
  obtain ⟨start, hstart⟩ : ∃ start, aligned? position 4 = some start := ⟨_, rfl⟩
  obtain ⟨hlow, hinside, hcases, rfl⟩ := (switchTable_readerAt_eq_ok hstart rfl).1 h
  rw [funext (Session.text?_indexOf strings)] at hcases
  subst hcases
  have hperm := List.mergeSort_perm ((List.range (signedAt data 4 start).toNat).map
    (storedCase (Session.textCiting? strings) data (start + 4) (signedAt data 4 start)))
    (fun a b ↦ a.target ≤ b.target)
  refine ⟨start, hstart, ?_, hperm, ?_, pairwise_precedes_storedCases, ?_, ?_, ?_⟩
  · rw [Int.toNat_eq_max]
  · have hplaces := hperm.map (·.index)
    rw [List.map_map] at hplaces
    exact hplaces.trans (.of_eq (List.map_id _))
  · intro entry hentry
    obtain ⟨place, _, rfl⟩ := List.mem_map.1 (hperm.mem_iff.1 hentry)
    exact display_storedCase place
  · rw [hperm.countP_eq]
    exact countP_isDefault_storedCases
  · intro entry hentry hcited hdefault
    obtain ⟨place, _, rfl⟩ := List.mem_map.1 (hperm.mem_iff.1 hentry)
    have hnone := ((isDefault_storedCase_iff place).1 hdefault).1
    rw [storedCase, hnone] at hcited
    cases hcited

/-- A table of four cases behind three bytes of padding: a zero, a text, a negative number and the
default. The first two lead to the same address. -/
def tableSample : ByteArray :=
  ⟨#[0, 0, 0, 0, 4, 0, 0, 0,
    0, 0, 0, 0, 12, 0, 0, 0,
    0, 0, 0, 0, 4, 0, 0, 0,
    255, 255, 255, 255, 236, 255, 255, 255,
    0, 0, 0, 0, 216, 255, 255, 255]⟩

/-- The text of the second case reads like the default. -/
def tableStrings : Array StringEntry :=
  #[⟨0, "other", [2]⟩, ⟨0, "default", [90, 18]⟩]

def tableCases : List SwitchCase :=
  [⟨.otherwise, 0, 3⟩, ⟨.value (-1), 12, 2⟩, ⟨.value 0, 28, 0⟩, ⟨.text "default", 28, 1⟩]

theorem switchTable_tableSample :
    switchTable (Session.indexOf tableStrings) (readerAt tableSample 1) =
      .ok tableCases (readerAt tableSample 40) := by
  have hstart : aligned? 1 4 = some 4 := by decide
  have hcount : signedAt tableSample 4 4 = 4 := by decide +kernel
  have horder : tableCases.Pairwise Precedes := by decide
  have hslots : tableCases.Perm ((List.range 4).map
      (storedCase (Session.textCiting? tableStrings) tableSample 8 4)) := by
    decide +kernel
  refine (switchTable_readerAt_eq_ok hstart hcount).2 ⟨by decide, by decide, ?_, rfl⟩
  rw [funext (Session.text?_indexOf tableStrings)]
  exact eq_of_perm_of_precedes horder pairwise_precedes_storedCases
    (hslots.trans (List.mergeSort_perm _ _).symm)

theorem switchTable_reconstructs_tableSample :
    switchTable (Session.indexOf tableStrings) (readerAt tableSample 1) =
      .ok tableCases (readerAt tableSample 40) ∧
    (tableCases.map (·.index)).Perm (List.range 4) ∧ tableCases.Pairwise Precedes ∧
    tableCases.map (·.label.display) = ["default", "-1", "0", "\"default\""] ∧
    tableCases.countP (fun entry ↦ entry.IsDefault) ≤ 1 ∧
    ¬ (⟨.text "default", 28, 1⟩ : SwitchCase).IsDefault := by
  obtain ⟨start, hstart, _, _, hplaces, horder, _, hdefault, htext⟩ :=
    switchTable_reconstructs_slots _ _ _ _ _ switchTable_tableSample
  obtain rfl : 4 = start := Option.some.inj hstart
  have hcount : signedAt tableSample 4 4 = 4 := by decide +kernel
  rw [hcount] at hplaces
  exact ⟨switchTable_tableSample, hplaces, horder, by decide +kernel, hdefault,
    htext _ (by simp [tableCases]) (by decide)⟩

end Script
end CompiledScript
