import CompiledScript.Names.Text
import Mathlib.Data.List.TakeWhile

/-!
# The grammar of name tables

A name table is a sequence of lines, each of which holds an entry or nothing:

    table : (entry? FEED)*
    line  : entry?
    entry : HASH COMMA NAME? EXTRA?

A text is cut into tokens from left to right. What the next token can be depends on the place in the
grammar: only terminals that are expected there are tried, each takes as many characters as it can,
and spaces, tabs and comments are passed over where none of them fits. So a `#` behind the first
comma belongs to the name, and everywhere else it starts a comment.

Where a line ends, no token that has started can go on.
-/

namespace CompiledScript.Names.Grammar

/-- What a text is read as: a whole table, or a line on its own. -/
inductive Rule where
  | table
  | line

/-- A place inside a line, by the last token in front of it. -/
inductive Place where
  | start
  | hash (value : Nat)
  | comma (value : Nat)
  | name (entry : Entry)
  | extra (entry : Entry)

/-- Whether a character belongs to a line, and does not end it. -/
def inLine (c : Char) : Bool :=
  c ≠ '\r' && c ≠ '\n'

def inName (c : Char) : Bool :=
  c ≠ ',' && inLine c

def isSpace (c : Char) : Bool :=
  c = ' ' || c = '\t'

/-- The rest of a text behind spaces and tabs, or behind a comment. -/
def ignored? : List Char → Option (List Char)
  | [] => none
  | c :: rest =>
    if isSpace c then some (rest.dropWhile isSpace)
    else if c = '#' then some (rest.dropWhile inLine)
    else none

/-- The rest of a text behind a line feed, with or without a carriage return. -/
def takeFeed? : List Char → Option (List Char)
  | '\n' :: rest => some rest
  | '\r' :: '\n' :: rest => some rest
  | _ => none

namespace Place

/-- The place behind the next token of an entry, and the rest of the text. -/
def next? : Place → List Char → Option (Place × List Char)
  | .start, text => (takeHash? text).map fun found ↦ (.hash found.1, found.2)
  | .hash value, ',' :: rest => some (.comma value, rest)
  | .comma value, ',' :: rest => some (.extra ⟨value, ""⟩, rest.dropWhile inLine)
  | .comma value, c :: rest =>
    if inName c then
      let name := (c :: rest).takeWhile inName
      some (.name ⟨value, String.ofList (Text.trim name)⟩, (c :: rest).dropWhile inName)
    else none
  | .name entry, ',' :: rest => some (.extra entry, rest.dropWhile inLine)
  | _, _ => none

/-- The entries of a line that may end here. -/
def complete? : Place → Option (List Entry)
  | .start => some []
  | .hash _ => none
  | .comma value => some [⟨value, ""⟩]
  | .name entry | .extra entry => some [entry]

/-- The entries of a text that may end here. The last line of a table ends with a feed. -/
def finish : Rule → Place → Option (List Entry)
  | .line, place => place.complete?
  | .table, .start => some []
  | .table, _ => none

/-- The entries of a line of a table that ends here, and the rest of the text. -/
def feed? : Rule → Place → List Char → Option (List Entry × List Char)
  | .line, _, _ => none
  | .table, place, text => do return (← place.complete?, ← takeFeed? text)

end Place

/-! ## Tokens are not empty -/

section Length

variable {text rest : List Char}

theorem length_dropWhile_lt {p : Char → Bool} (h : (text.takeWhile p).isEmpty = false) :
    (text.dropWhile p).length < text.length := by
  have hlength := congrArg List.length (List.takeWhile_append_dropWhile (p := p) (l := text))
  rw [List.length_append] at hlength
  have hpositive : 0 < (text.takeWhile p).length := by
    rw [List.length_pos_iff]
    simpa using h
  omega

theorem length_dropMark_le (text : List Char) : (dropMark text).length ≤ text.length := by
  unfold dropMark
  split
  · split <;> simp
  · exact Nat.le_refl _

theorem length_lt_of_takeHash?_eq_some {value : Nat} (h : takeHash? text = some (value, rest)) :
    rest.length < text.length := by
  unfold takeHash? at h
  dsimp only at h
  split at h
  · cases h
  · rename_i hdigits
    cases h
    exact Nat.lt_of_lt_of_le (length_dropWhile_lt (Bool.eq_false_iff.2 hdigits))
      (length_dropMark_le text)

theorem length_lt_of_next?_eq_some {place behind : Place}
    (h : place.next? text = some (behind, rest)) : rest.length < text.length := by
  have hcons (p : Char → Bool) (c : Char) (others : List Char) :
      (others.dropWhile p).length < (c :: others).length :=
    Nat.lt_succ_of_le (List.dropWhile_suffix p).length_le
  unfold Place.next? at h
  split at h
  · obtain ⟨⟨value, after⟩, hhash, hfound⟩ := Option.map_eq_some_iff.1 h
    cases hfound
    exact length_lt_of_takeHash?_eq_some hhash
  · cases h
    exact Nat.lt_succ_self _
  · cases h
    exact hcons _ _ _
  · split at h
    · rename_i hname
      cases h
      rw [List.dropWhile_cons_of_pos hname]
      exact hcons _ _ _
    · cases h
  · cases h
    exact hcons _ _ _
  · cases h

theorem length_lt_of_takeFeed?_eq_some (h : takeFeed? text = some rest) :
    rest.length < text.length := by
  unfold takeFeed? at h
  split at h
  · cases h
    exact Nat.lt_succ_self _
  · cases h
    exact Nat.lt_succ_of_lt (Nat.lt_succ_self _)
  · cases h

theorem length_lt_of_feed?_eq_some {rule : Rule} {place : Place} {entries : List Entry}
    (h : place.feed? rule text = some (entries, rest)) : rest.length < text.length := by
  cases rule with
  | line => cases h
  | table =>
    obtain ⟨_, _, hmore⟩ := Option.bind_eq_some_iff.1 h
    obtain ⟨_, hfeed, hfound⟩ := Option.bind_eq_some_iff.1 hmore
    cases hfound
    exact length_lt_of_takeFeed?_eq_some hfeed

theorem length_lt_of_ignored?_eq_some (h : ignored? text = some rest) :
    rest.length < text.length := by
  unfold ignored? at h
  split at h
  · cases h
  · split at h
    · cases h
      exact Nat.lt_succ_of_le (List.dropWhile_suffix _).length_le
    · split at h
      · cases h
        exact Nat.lt_succ_of_le (List.dropWhile_suffix _).length_le
      · cases h

end Length

set_option linter.unusedVariables false in
/-- The entries of a text, read from a place in a line on. -/
def read (rule : Rule) (place : Place) (text : List Char) : Option (List Entry) :=
  match hnext : place.next? text with
  | some (behind, rest) => read rule behind rest
  | none =>
    match hfeed : place.feed? rule text with
    | some (entries, rest) => (read rule .start rest).map (entries ++ ·)
    | none =>
      match hignored : ignored? text with
      | some rest => read rule place rest
      | none => if text = [] then place.finish rule else none
  termination_by text.length
  decreasing_by
    · exact length_lt_of_next?_eq_some hnext
    · exact length_lt_of_feed?_eq_some hfeed
    · exact length_lt_of_ignored?_eq_some hignored

/-! ## Steps of reading -/

section Steps

variable {rule : Rule} {place behind : Place} {text rest : List Char} {entries : List Entry}

theorem read_of_next (h : place.next? text = some (behind, rest)) :
    read rule place text = read rule behind rest := by
  rw [read]
  split <;> simp_all

theorem read_of_feed (hnext : place.next? text = none)
    (h : place.feed? rule text = some (entries, rest)) :
    read rule place text = (read rule .start rest).map (entries ++ ·) := by
  rw [read]
  split
  · simp_all
  · split <;> simp_all

theorem read_of_ignored (hnext : place.next? text = none) (hfeed : place.feed? rule text = none)
    (h : ignored? text = some rest) : read rule place text = read rule place rest := by
  rw [read]
  split
  · simp_all
  · split
    · simp_all
    · split <;> simp_all

theorem read_of_stuck (hnext : place.next? text = none) (hfeed : place.feed? rule text = none)
    (h : ignored? text = none) :
    read rule place text = if text = [] then place.finish rule else none := by
  rw [read]
  split
  · simp_all
  · split
    · simp_all
    · split <;> simp_all

end Steps

/-! ## Tokens at the end of a line -/

/-- A text that does not continue a line: it is empty, or starts with a line break. -/
def Stops (after : List Char) : Prop :=
  ∀ c ∈ after.head?, inLine c = false

theorem inLine_of_isHexDigit {c : Char} (h : isHexDigit c = true) : inLine c = true := by
  have hreturn : c ≠ '\r' := by
    rintro rfl
    cases h
  have hfeed : c ≠ '\n' := by
    rintro rfl
    cases h
  simp [inLine, hreturn, hfeed]

theorem inLine_of_inName {c : Char} (h : inName c = true) : inLine c = true :=
  (Bool.and_eq_true_iff.1 h).2

section Stops

variable {rule : Rule} {place other : Place} {c : Char} {text after : List Char}

theorem takeWhile_append_of_stops {p : Char → Bool} (hp : ∀ c, p c = true → inLine c = true)
    (h : Stops after) : (text ++ after).takeWhile p = text.takeWhile p := by
  have hnone : after.takeWhile p = [] := by
    cases after with
    | nil => rfl
    | cons c rest =>
      refine List.takeWhile_cons_of_neg fun hc ↦ ?_
      exact absurd (hp c hc) (Bool.eq_false_iff.1 (h c rfl))
  rw [List.takeWhile_append, hnone, List.append_nil]
  split
  · rename_i hlength
    exact ((List.takeWhile_prefix p).eq_of_length hlength).symm
  · rfl

theorem dropWhile_append_of_stops {p : Char → Bool} (hp : ∀ c, p c = true → inLine c = true)
    (h : Stops after) : (text ++ after).dropWhile p = text.dropWhile p ++ after := by
  have hsplit := (text ++ after).takeWhile_append_dropWhile (p := p)
  rw [takeWhile_append_of_stops hp h] at hsplit
  rw [← List.append_right_inj (text.takeWhile p), hsplit, ← List.append_assoc,
    List.takeWhile_append_dropWhile]

theorem dropMark_eq_self (h : ∀ x digit rest, text = '0' :: x :: digit :: rest →
    (x = 'x' ∨ x = 'X') → isHexDigit digit = false) : dropMark text = text := by
  unfold dropMark
  split
  · rename_i x digit rest
    refine if_neg fun hmark ↦ ?_
    rw [h x digit rest rfl hmark.1] at hmark
    exact Bool.false_ne_true hmark.2
  · rfl

theorem dropMark_append (h : Stops after) : dropMark (text ++ after) = dropMark text ++ after := by
  have hends (c : Char) (rest : List Char) (hafter : after = c :: rest) : inLine c = false :=
    h c (by rw [hafter]; rfl)
  match text with
  | [] =>
    refine dropMark_eq_self fun x digit rest hshape ↦ ?_
    cases hends _ _ hshape
  | [first] =>
    rw [show dropMark [first] = [first] from dropMark_eq_self (by simp)]
    refine dropMark_eq_self fun x digit rest hshape hx ↦ ?_
    have hfalse := hends _ _ (List.cons.inj hshape).2
    rcases hx with rfl | rfl <;> cases hfalse
  | [first, second] =>
    rw [show dropMark [first, second] = [first, second] from dropMark_eq_self (by simp)]
    refine dropMark_eq_self fun x digit rest hshape _ ↦ ?_
    have hfalse := hends _ _ (List.cons.inj (List.cons.inj hshape).2).2
    refine Bool.eq_false_iff.2 fun hdigit ↦ ?_
    rw [inLine_of_isHexDigit hdigit] at hfalse
    cases hfalse
  | first :: second :: third :: rest =>
    by_cases hzero : first = '0'
    · subst hzero
      by_cases hmark : (second = 'x' ∨ second = 'X') ∧ isHexDigit third = true <;>
        simp [dropMark, hmark]
    · simp [dropMark, hzero]

theorem takeHash?_append (h : Stops after) :
    takeHash? (text ++ after) = (takeHash? text).map fun found ↦ (found.1, found.2 ++ after) := by
  unfold takeHash?
  rw [dropMark_append h, takeWhile_append_of_stops (fun _ ↦ inLine_of_isHexDigit) h,
    dropWhile_append_of_stops (fun _ ↦ inLine_of_isHexDigit) h]
  dsimp only
  split <;> rfl

theorem next?_of_stops (h : Stops after) : place.next? after = none := by
  cases after with
  | nil => cases place <;> rfl
  | cons c rest =>
    have hc : inLine c = false := h c rfl
    have hcomma : c ≠ ',' := by
      rintro rfl
      cases hc
    have hname : inName c = false := by rw [inName, hc, Bool.and_false]
    have hhash : takeHash? (c :: rest) = none := by
      rw [← List.nil_append (c :: rest), takeHash?_append h]
      rfl
    cases place <;> simp [Place.next?, hcomma, hname, hhash]

theorem ignored?_eq_none_of_stops (h : Stops after) : ignored? after = none := by
  cases after with
  | nil => rfl
  | cons c rest =>
    have hc : inLine c = false := h c rfl
    have hspace : isSpace c ≠ true := by
      intro hspace
      rcases Bool.or_eq_true_iff.1 hspace with hspace | hspace
      all_goals
        rw [of_decide_eq_true hspace] at hc
        cases hc
    have hcomment : c ≠ '#' := by
      rintro rfl
      cases hc
    rw [ignored?, if_neg hspace, if_neg hcomment]

/-- Behind the first token of a line, only what the line holds decides on what follows. -/
theorem read_eq_of_complete?_eq (h : Stops after) (hcomplete : place.complete? = other.complete?)
    (hfinish : place.finish rule = other.finish rule) :
    read rule place after = read rule other after := by
  have hplace : place.next? after = none := next?_of_stops h
  have hother : other.next? after = none := next?_of_stops h
  have hfeed : place.feed? rule after = other.feed? rule after := by
    cases rule <;> simp only [Place.feed?, hcomplete]
  cases hfed : other.feed? rule after with
  | some found =>
    rw [read_of_feed hplace (hfeed.trans hfed), read_of_feed hother hfed]
  | none =>
    have hignored := ignored?_eq_none_of_stops h
    rw [read_of_stuck hplace (hfeed.trans hfed) hignored, read_of_stuck hother hfed hignored,
      hfinish]

end Stops

end CompiledScript.Names.Grammar
