import CompiledScript.Text.Line
import Mathlib.Data.List.Basic

/-!
# Cutting a text into lines

A text may be cut behind a line feed into two parts, and its lines are those of the two; the lines
between all breaks hold no break. In a text whose only breaks are line feeds, with or without a
carriage return in front, a feed that is missing at the end makes no difference.
-/

namespace CompiledScript.Text

/-- A text that ends its last line: it is empty, or its last character is a line feed. -/
def EndsLines (text : List Char) : Prop :=
  ∀ c ∈ text.getLast?, c = '\n'

/-- Whether the lines of a text end with a line feed, or with a carriage return and a line feed, and
have no other break. -/
def onlyFeeds : List Char → Bool
  | [] => true
  | '\r' :: '\n' :: rest => onlyFeeds rest
  | c :: rest => (c = '\n' || !isBreak c) && onlyFeeds rest

section Steps

variable {c : Char} {text : List Char} {others more : List (List Char)}

theorem extendFirst_append (h : others ≠ []) :
    extendFirst c (others ++ more) = extendFirst c others ++ more := by
  cases others with
  | nil => contradiction
  | cons first rest => rfl

theorem extendFirst_ne_nil : extendFirst c others ≠ [] := by
  cases others <;> exact List.cons_ne_nil _ _

section LinesAt

variable {breaks : Char → Bool}

theorem linesAt_cons_of_not_breaks (h : breaks c = false) :
    linesAt breaks (c :: text) = extendFirst c (linesAt breaks text) := by
  rw [linesAt, h]
  rfl

theorem linesAt_cons_of_breaks (h : breaks c = true) (hpair : c = '\r' → text.head? ≠ some '\n') :
    linesAt breaks (c :: text) = [] :: linesAt breaks text := by
  rw [linesAt, if_pos h, if_neg fun hboth ↦ hpair hboth.1 hboth.2]

theorem linesAt_ne_nil (h : text ≠ []) : linesAt breaks text ≠ [] := by
  fun_induction linesAt breaks text with
  | case1 => contradiction
  | case2 c rest hbreak hpair ih =>
    apply ih
    rintro rfl
    cases hpair.2
  | case3 => exact List.cons_ne_nil _ _
  | case4 => exact extendFirst_ne_nil

/-- No break is left inside a line. -/
theorem not_breaks_of_mem_linesAt : ∀ line ∈ linesAt breaks text, ∀ c ∈ line, breaks c = false := by
  fun_induction linesAt breaks text with
  | case1 => exact List.forall_mem_nil _
  | case2 c rest hbreak hpair ih => exact ih
  | case3 c rest hbreak hpair ih =>
    exact List.forall_mem_cons.2 ⟨List.forall_mem_nil _, ih⟩
  | case4 c rest hbreak ih =>
    have hc : breaks c = false := Bool.eq_false_iff.2 hbreak
    cases hrest : linesAt breaks rest with
    | nil => simpa [extendFirst] using hc
    | cons first others =>
      rw [hrest, List.forall_mem_cons] at ih
      rw [extendFirst, List.forall_mem_cons, List.forall_mem_cons]
      exact ⟨⟨hc, ih.1⟩, ih.2⟩

end LinesAt

theorem feedLines_cons :
    feedLines (c :: text) =
      if c = '\n' then [] :: feedLines text else extendFirst c (feedLines text) := by
  by_cases hc : c = '\n'
  · subst hc
    exact linesAt_cons_of_breaks rfl (absurd · (by decide))
  · rw [if_neg hc]
    exact linesAt_cons_of_not_breaks (decide_eq_false hc)

theorem lines_cons (h : c = '\r' → text.head? ≠ some '\n') :
    lines (c :: text) = if isBreak c then [] :: lines text else extendFirst c (lines text) := by
  split
  · rename_i hbreak
    exact linesAt_cons_of_breaks hbreak h
  · rename_i hbreak
    exact linesAt_cons_of_not_breaks (Bool.eq_false_iff.2 hbreak)

theorem lines_return_feed : lines ('\r' :: '\n' :: text) = [] :: lines text := by
  rw [lines, linesAt, if_pos (by decide), if_pos ⟨rfl, rfl⟩]
  exact linesAt_cons_of_breaks (by decide) (absurd · (by decide))

theorem ne_return_of_not_isBreak (h : isBreak c = false) : c ≠ '\r' := by
  rintro rfl
  cases h

theorem ne_feed_of_not_isBreak (h : isBreak c = false) : c ≠ '\n' := by
  rintro rfl
  cases h

theorem lines_cons_of_not_isBreak (h : isBreak c = false) :
    lines (c :: text) = extendFirst c (lines text) := by
  rw [lines_cons (absurd · (ne_return_of_not_isBreak h)), h]
  rfl

theorem onlyFeeds_cons_of_ne (h : c ≠ '\r') :
    onlyFeeds (c :: text) = ((c = '\n' || !isBreak c) && onlyFeeds text) := by
  rw [onlyFeeds]
  rintro rest rfl
  contradiction

end Steps

section Cut

variable {c : Char} {body text rest first : List Char} {others : List (List Char)}

theorem EndsLines.of_suffix (h : EndsLines text) (hrest : rest <:+ text) : EndsLines rest := by
  obtain ⟨body, rfl⟩ := hrest
  exact fun c hc ↦ h c (List.mem_getLast?_append_of_mem_getLast? hc)

theorem EndsLines.tail (h : EndsLines (c :: text)) : EndsLines text :=
  h.of_suffix (List.suffix_cons c text)

theorem endsLines_of_getLast? (h : text.getLast? = some '\n') : EndsLines text :=
  fun _ hc ↦ Option.some.inj (hc.symm.trans h)

theorem feedLines_append_of_cons (hbody : '\n' ∉ body) (h : feedLines text = first :: others) :
    feedLines (body ++ text) = (body ++ first) :: others := by
  induction body with
  | nil => exact h
  | cons c rest ih =>
    rw [List.mem_cons, not_or] at hbody
    rw [List.cons_append, feedLines_cons, if_neg (Ne.symm hbody.1), ih hbody.2]
    rfl

/-- A line feed ends the first line. -/
theorem feedLines_append_feed (hbody : '\n' ∉ body) :
    feedLines (body ++ '\n' :: rest) = body :: feedLines rest := by
  have hfirst : feedLines ('\n' :: rest) = [] :: feedLines rest := by
    rw [feedLines_cons, if_pos rfl]
  rw [feedLines_append_of_cons hbody hfirst, List.append_nil]

theorem exists_feedLines_cons (text : List Char) (hc : c ≠ '\n') :
    ∃ first others, feedLines (c :: text) = (c :: first) :: others := by
  rw [feedLines_cons, if_neg hc]
  cases feedLines text with
  | nil => exact ⟨[], [], rfl⟩
  | cons first others => exact ⟨first, others, rfl⟩

/-- A line feed separates what is in front of it from what follows. -/
theorem linesAt_append {breaks : Char → Bool} (hfeed : breaks '\n' = true) (h : EndsLines text) :
    linesAt breaks (text ++ rest) = linesAt breaks text ++ linesAt breaks rest := by
  fun_induction linesAt breaks text with
  | case1 => rfl
  | case2 c more hbreak hpair ih =>
    have hmore : (more ++ rest).head? = some '\n' := by
      rw [List.head?_append, hpair.2]
      rfl
    rw [List.cons_append, linesAt, if_pos hbreak, if_pos ⟨hpair.1, hmore⟩, ih h.tail]
  | case3 c more hbreak hpair ih =>
    have hcut : c = '\r' → (more ++ rest).head? ≠ some '\n' := by
      rintro rfl
      cases more with
      | nil => cases h '\r' rfl
      | cons d others => exact fun hhead ↦ hpair ⟨rfl, hhead⟩
    rw [List.cons_append, linesAt_cons_of_breaks hbreak hcut, ih h.tail]
    rfl
  | case4 c more hbreak ih =>
    have hne : more ≠ [] := by
      rintro rfl
      rw [h c rfl] at hbreak
      contradiction
    rw [List.cons_append, linesAt_cons_of_not_breaks (Bool.eq_false_iff.2 hbreak), ih h.tail,
      extendFirst_append (linesAt_ne_nil hne)]

theorem feedLines_append (h : EndsLines text) :
    feedLines (text ++ rest) = feedLines text ++ feedLines rest :=
  linesAt_append rfl h

theorem lines_append (h : EndsLines text) : lines (text ++ rest) = lines text ++ lines rest :=
  linesAt_append rfl h

/-- No feed is left inside a line. -/
theorem feed_not_mem_of_mem_feedLines : ∀ line ∈ feedLines text, '\n' ∉ line :=
  fun line hline hfeed ↦ nomatch not_breaks_of_mem_linesAt line hline _ hfeed

theorem not_isBreak_of_mem_lines : ∀ line ∈ lines text, ∀ c ∈ line, isBreak c = false :=
  not_breaks_of_mem_linesAt

/-- A text without a break is a line. -/
theorem lines_append_feed_of_no_break (hbody : ∀ c ∈ body, isBreak c = false) :
    lines (body ++ ['\n']) = [body] := by
  induction body with
  | nil => rfl
  | cons c rest ih =>
    rw [List.forall_mem_cons] at hbody
    rw [List.cons_append, lines_cons_of_not_isBreak hbody.1, ih hbody.2]
    rfl

theorem onlyFeeds_of_no_break (hbody : ∀ c ∈ body, isBreak c = false) :
    onlyFeeds body = true := by
  induction body with
  | nil => rfl
  | cons c rest ih =>
    rw [List.forall_mem_cons] at hbody
    rw [onlyFeeds_cons_of_ne (ne_return_of_not_isBreak hbody.1), hbody.1, ih hbody.2]
    simp

/-- A carriage return is a break of its own if no line feed follows. -/
theorem ne_return_of_onlyFeeds (h : (c = '\n' || !isBreak c) = true) : c ≠ '\r' := by
  rintro rfl
  cases h

theorem onlyFeeds_append_feed (h : onlyFeeds text = true) : onlyFeeds (text ++ ['\n']) = true := by
  fun_induction onlyFeeds text with
  | case1 => rfl
  | case2 rest ih => exact ih h
  | case3 c rest hpair ih =>
    rw [Bool.and_eq_true] at h
    rw [List.cons_append, onlyFeeds_cons_of_ne (ne_return_of_onlyFeeds h.1), h.1, ih h.2]
    rfl

theorem onlyFeeds_terminated (h : onlyFeeds text = true) : onlyFeeds (terminated text) = true := by
  unfold terminated
  split
  · exact h
  · exact onlyFeeds_append_feed h

theorem lines_append_feed (h : onlyFeeds text = true) (hlast : text.getLast? ≠ some '\n')
    (hne : text ≠ []) : lines (text ++ ['\n']) = lines text := by
  fun_induction onlyFeeds text with
  | case1 => contradiction
  | case2 rest ih =>
    cases rest with
    | nil => contradiction
    | cons d others =>
      rw [List.getLast?_cons_cons, List.getLast?_cons_cons] at hlast
      rw [List.cons_append, List.cons_append, lines_return_feed,
        ih h hlast (List.cons_ne_nil d others), lines_return_feed]
  | case3 c rest hpair ih =>
    rw [Bool.and_eq_true] at h
    have hreturn := ne_return_of_onlyFeeds h.1
    rw [List.cons_append, lines_cons (absurd · hreturn), lines_cons (absurd · hreturn)]
    cases rest with
    | nil =>
      have hc : c ≠ '\n' := fun hc ↦ hlast (congrArg some hc)
      have hnone : isBreak c = false := by simpa [hc] using h.1
      rw [hnone]
      rfl
    | cons d others =>
      rw [List.getLast?_cons_cons] at hlast
      rw [ih h.2 hlast (List.cons_ne_nil d others)]

theorem lines_terminated (h : onlyFeeds text = true) (hne : text ≠ []) :
    lines (terminated text) = lines text := by
  unfold terminated
  split
  · rfl
  · rename_i hlast
    exact lines_append_feed h hlast hne

/-- A text without a break is its only line, if it is not empty. -/
theorem lines_of_no_break (hbody : ∀ c ∈ body, isBreak c = false) (hne : body ≠ []) :
    lines body = [body] := by
  have hlast : body.getLast? ≠ some '\n' := fun hlast ↦
    ne_feed_of_not_isBreak (hbody _ (List.mem_of_getLast? hlast)) rfl
  rw [← lines_append_feed (onlyFeeds_of_no_break hbody) hlast hne,
    lines_append_feed_of_no_break hbody]

end Cut

end CompiledScript.Text
