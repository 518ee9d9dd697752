import CompiledScript.Proofs.Names.Grammar
import CompiledScript.Proofs.Text.Lines

/-!
# Reading by the grammar

Reading the text of a name table token by token gives what `parseLine` and `wholeEntries` give: the
former goes through the parts of a line on its own, and the latter through the lines of a table one
after another. Both cut the text at line breaks first, which no token but a feed reaches across.
-/

namespace CompiledScript.Names.Grammar

/-! ## Reading a line -/

section Line

variable {rule : Rule} {place : Place} {c : Char} {body text after : List Char} {value : Nat}

theorem inLine_of_isSpace (h : isSpace c = true) : inLine c = true := by
  rcases Bool.or_eq_true_iff.1 h with h | h
  all_goals
    rw [of_decide_eq_true h]
    rfl

theorem feed?_cons_of_inLine (h : inLine c = true) : place.feed? rule (c :: text) = none := by
  have hfeed : takeFeed? (c :: text) = none := by
    simp only [inLine, Bool.and_eq_true, decide_eq_true_eq] at h
    simp [takeFeed?, h]
  cases rule with
  | line => rfl
  | table => simp [Place.feed?, hfeed]

theorem ignore_suffix (text : List Char) : ignore text <:+ text := by
  fun_induction ignore text with
  | case1 => exact List.suffix_rfl
  | case2 c rest _ ih => exact ih.trans (List.suffix_cons c rest)
  | case3 rest => exact List.nil_suffix
  | case4 => exact List.suffix_rfl

theorem ignored?_eq_none_of_ignore_eq_cons (h : ignore text = c :: after) :
    ignored? (c :: body) = none := by
  fun_induction ignore text with
  | case1 => cases h
  | case2 _ _ _ ih => exact ih h
  | case3 => cases h
  | case4 d rest hspace hcomment =>
    cases h
    simp only [ignored?, isSpace]
    simp [hspace, hcomment]

theorem takeHash?_eq_none (hc : isHexDigit c = false) : takeHash? (c :: text) = none := by
  have hmark : dropMark (c :: text) = c :: text := by
    refine dropMark_eq_self fun x digit rest hshape ↦ ?_
    rw [(List.cons.inj hshape).1] at hc
    cases hc
  unfold takeHash?
  rw [hmark, List.takeWhile_cons_of_neg (by rw [hc]; exact Bool.false_ne_true)]
  rfl

theorem takeHash?_suffix {rest : List Char} (h : takeHash? text = some (value, rest)) :
    rest <:+ text := by
  have hmark : dropMark text <:+ text := by
    unfold dropMark
    split
    · split
      · exact ⟨['0', _], rfl⟩
      · exact List.suffix_rfl
    · exact List.suffix_rfl
  unfold takeHash? at h
  dsimp only at h
  split at h
  · cases h
  · cases h
    exact (List.dropWhile_suffix _).trans hmark

/-- The rest of a line is all that there is in front of what does not continue it. -/
theorem dropWhile_inLine (hbody : ∀ c ∈ body, inLine c = true) (h : Stops after) :
    (body ++ after).dropWhile inLine = after := by
  rw [dropWhile_append_of_stops (fun _ hc ↦ hc) h, List.dropWhile_eq_nil_iff.2 hbody,
    List.nil_append]

/-- A place at which neither spaces nor a comment start a token. -/
def Place.Quiet (place : Place) : Prop :=
  ∀ c text, isSpace c = true ∨ c = '#' → place.next? (c :: text) = none

theorem quiet_start : Place.start.Quiet := by
  rintro c text h
  have hc : isHexDigit c = false := by
    rcases h with h | rfl
    · rcases Bool.or_eq_true_iff.1 h with h | h
      all_goals
        rw [of_decide_eq_true h]
        rfl
    · rfl
  simp [Place.next?, takeHash?_eq_none hc]

theorem quiet_hash : (Place.hash value).Quiet := by
  rintro c text h
  have hc : c ≠ ',' := by
    rintro rfl
    rcases h with h | h <;> cases h
  simp [Place.next?, hc]

theorem read_dropWhile_isSpace (hquiet : place.Quiet) :
    read rule place (text.dropWhile isSpace) = read rule place text := by
  cases text with
  | nil => rfl
  | cons c rest =>
    by_cases hc : isSpace c = true
    · rw [List.dropWhile_cons_of_pos hc]
      refine (read_of_ignored (hquiet c rest (.inl hc)) ?_ ?_).symm
      · exact feed?_cons_of_inLine (inLine_of_isSpace hc)
      · rw [ignored?, if_pos hc]
    · rw [List.dropWhile_cons_of_neg hc]

/-- Spaces, tabs and a comment at the start of what is left of a line are passed over. -/
theorem read_ignore (hquiet : place.Quiet) (hbody : ∀ c ∈ body, inLine c = true)
    (h : Stops after) :
    read rule place (body ++ after) = read rule place (ignore body ++ after) := by
  fun_induction ignore body with
  | case1 => rfl
  | case2 c rest hspace ih =>
    have hc : isSpace c = true := by simpa [isSpace] using hspace
    calc
      _ = read rule place ((rest ++ after).dropWhile isSpace) := by
        refine read_of_ignored (hquiet c _ (.inl hc)) ?_ ?_
        · exact feed?_cons_of_inLine (inLine_of_isSpace hc)
        · rw [List.cons_append, ignored?, if_pos hc]
      _ = read rule place (rest ++ after) := read_dropWhile_isSpace hquiet
      _ = _ := ih (List.forall_mem_cons.1 hbody).2
  | case3 rest hspace =>
    refine read_of_ignored (hquiet '#' _ (.inr rfl)) (feed?_cons_of_inLine rfl) ?_
    rw [List.cons_append, ignored?, if_neg (by decide), if_pos rfl,
      dropWhile_inLine (List.forall_mem_cons.1 hbody).2 h]
    rfl
  | case4 => rfl

/-- The last part of a line is its end, or a comma with what is not looked at. -/
theorem read_name {entry : Entry} (hbody : ∀ c ∈ body, inLine c = true) (h : Stops after)
    (hcomma : ∀ c ∈ body.head?, c = ',') :
    read rule (.name entry) (body ++ after) = read rule (.extra entry) after := by
  cases body with
  | nil =>
    refine read_eq_of_complete?_eq h rfl ?_
    cases rule <;> rfl
  | cons c rest =>
    obtain rfl := hcomma c rfl
    apply read_of_next
    rw [List.cons_append, Place.next?, dropWhile_inLine (List.forall_mem_cons.1 hbody).2 h]

/-- In a line, a name ends at a comma only. -/
theorem takeWhile_inName (hbody : ∀ c ∈ body, inLine c = true) :
    body.takeWhile inName = body.takeWhile (· ≠ ',') := by
  induction body with
  | nil => rfl
  | cons c rest ih =>
    have hname : inName c = decide (c ≠ ',') := by
      rw [inName, hbody c List.mem_cons_self, Bool.and_true]
    rw [List.takeWhile_cons, List.takeWhile_cons, hname,
      ih fun c hmem ↦ hbody c (List.mem_cons_of_mem _ hmem)]

theorem read_comma (hbody : ∀ c ∈ body, inLine c = true) (h : Stops after) :
    read rule (.comma value) (body ++ after) =
      read rule (.extra ⟨value, String.ofList (Text.trim (body.takeWhile (· ≠ ',')))⟩) after := by
  cases body with
  | nil =>
    refine read_eq_of_complete?_eq h rfl ?_
    cases rule <;> rfl
  | cons c rest =>
    by_cases hcomma : c = ','
    · subst hcomma
      apply read_of_next
      rw [List.cons_append, Place.next?, dropWhile_inLine (List.forall_mem_cons.1 hbody).2 h]
      rfl
    · have hname : inName c = true := by
        simp [inName, hcomma, hbody c List.mem_cons_self]
      have hnext : (Place.comma value).next? (c :: rest ++ after) = some
          (.name ⟨value, String.ofList (Text.trim ((c :: rest ++ after).takeWhile inName))⟩,
            (c :: rest ++ after).dropWhile inName) := by
        simp only [List.cons_append]
        rw [Place.next?, if_pos hname]
        exact fun h ↦ hcomma h
      rw [read_of_next hnext, takeWhile_append_of_stops (fun _ ↦ inLine_of_inName) h,
        dropWhile_append_of_stops (fun _ ↦ inLine_of_inName) h, takeWhile_inName hbody]
      refine read_name (fun d hd ↦ hbody d ((List.dropWhile_suffix _).mem hd)) h ?_
      intro d hd
      have hstop := List.head?_dropWhile_not inName (c :: rest)
      rw [hd] at hstop
      have hmem := (List.dropWhile_suffix inName).mem (List.mem_of_mem_head? hd)
      simpa [inName, hbody d hmem] using hstop

theorem read_hash_of_comma {fields : List Char} (hbody : ∀ c ∈ body, inLine c = true)
    (h : Stops after) (hcomma : ignore body = ',' :: fields) :
    read rule (.hash value) (body ++ after) =
      read rule (.extra ⟨value, String.ofList (Text.trim (fields.takeWhile (· ≠ ',')))⟩) after := by
  have hfields : ∀ c ∈ fields, inLine c = true := fun c hc ↦
    hbody c ((ignore_suffix body).mem (hcomma ▸ List.mem_cons_of_mem _ hc))
  calc
    _ = read rule (.hash value) (',' :: (fields ++ after)) := by
      rw [read_ignore quiet_hash hbody h, hcomma, List.cons_append]
    _ = read rule (.comma value) (fields ++ after) := read_of_next rfl
    _ = _ := read_comma hfields h

/-- A hash without a comma behind it is no entry. -/
theorem read_hash_of_ne (hbody : ∀ c ∈ body, inLine c = true) (h : Stops after)
    (hcomma : ∀ fields, ignore body ≠ ',' :: fields) :
    read rule (.hash value) (body ++ after) = none := by
  rw [read_ignore quiet_hash hbody h]
  cases hrest : ignore body with
  | nil =>
    have hfeed : (Place.hash value).feed? rule after = none := by cases rule <;> rfl
    refine (read_of_stuck (next?_of_stops h) hfeed (ignored?_eq_none_of_stops h)).trans ?_
    cases rule <;> exact ite_self none
  | cons c fields =>
    have hc : c ≠ ',' := fun hc ↦ hcomma fields (hc ▸ hrest)
    have hmem : c ∈ body := (ignore_suffix body).mem (hrest ▸ List.mem_cons_self)
    refine (read_of_stuck ?_ ?_ ?_).trans (if_neg (List.cons_ne_nil _ _))
    · simp [Place.next?, hc]
    · exact feed?_cons_of_inLine (hbody c hmem)
    · exact ignored?_eq_none_of_ignore_eq_cons hrest

/-- The place behind a whole line with the given entry or none. -/
def Place.ofLine : Option Entry → Place
  | none => .start
  | some entry => .extra entry

/-- Reading from the start of a line on goes through the line as `parseLine` does. -/
theorem read_start (hbody : ∀ c ∈ body, inLine c = true) (h : Stops after) :
    read rule .start (body ++ after) =
      (parseLine body).toOption.bind fun entry ↦ read rule (.ofLine entry) after := by
  rw [read_ignore quiet_start hbody h]
  unfold parseLine
  cases hstart : ignore body with
  | nil => rfl
  | cons c rest =>
    have hline : ∀ d ∈ c :: rest, inLine d = true :=
      fun d hd ↦ hbody d ((ignore_suffix body).mem (hstart ▸ hd))
    cases hhash : takeHash? (c :: rest) with
    | none =>
      simp only [hhash]
      refine (read_of_stuck ?_ ?_ ?_).trans (if_neg (List.cons_ne_nil _ _))
      · simp only [Place.next?, takeHash?_append h, hhash, Option.map_none]
      · exact feed?_cons_of_inLine (hline c List.mem_cons_self)
      · exact ignored?_eq_none_of_ignore_eq_cons hstart
    | some found =>
      have hfound : ∀ d ∈ found.2, inLine d = true :=
        fun d hd ↦ hline d ((takeHash?_suffix hhash).mem hd)
      have hnext : Place.start.next? (c :: rest ++ after) =
          some (.hash found.1, found.2 ++ after) := by
        simp only [Place.next?, takeHash?_append h, hhash, Option.map_some]
      rw [read_of_next hnext]
      simp only [hhash]
      split
      · rename_i hnone
        exact read_hash_of_ne hfound h (by simp [hnone])
      · rename_i hcomma
        exact read_hash_of_comma hfound h hcomma
      · rename_i hother
        exact read_hash_of_ne hfound h hother

/-- The grammar of a line on its own accepts what `parseLine` accepts, as the same entry. -/
theorem read_line (hbody : ∀ c ∈ body, inLine c = true) :
    read .line .start body = (parseLine body).toOption.map Option.toList := by
  have hnil (place : Place) : read .line place [] = place.complete? := by
    have hnone : Stops [] := fun _ h ↦ by cases h
    rw [read_of_stuck (next?_of_stops hnone) rfl rfl]
    rfl
  have hend (entry : Option Entry) : read .line (.ofLine entry) [] = some entry.toList := by
    rw [hnil]
    cases entry <;> rfl
  calc
    _ = read .line .start (body ++ []) := by rw [List.append_nil]
    _ = (parseLine body).toOption.bind fun entry ↦ read .line (.ofLine entry) [] :=
      read_start hbody fun _ h ↦ by cases h
    _ = _ := by simp only [hend, Option.map_eq_bind, Function.comp_def]

end Line

/-! ## Reading a table -/

section Table

variable {place : Place} {body text after rest : List Char}

theorem stops_of_takeFeed?_eq_some (h : takeFeed? after = some rest) : Stops after := by
  unfold takeFeed? at h
  split at h
  · rintro c hc
    cases hc
    rfl
  · rintro c hc
    cases hc
    rfl
  · cases h

theorem suffix_of_takeFeed?_eq_some (h : takeFeed? after = some rest) : rest <:+ after := by
  unfold takeFeed? at h
  split at h
  · cases h
    exact List.suffix_cons _ _
  · cases h
    exact ⟨['\r', '\n'], rfl⟩
  · cases h

/-- The first line of a table, if it ends with a feed. -/
theorem read_table_of_feed (hbody : ∀ c ∈ body, inLine c = true) (h : takeFeed? after = some rest) :
    read .table .start (body ++ after) = (parseLine body).toOption.bind fun entry ↦
      (read .table .start rest).map (entry.toList ++ ·) := by
  have hstops := stops_of_takeFeed?_eq_some h
  have hend (entry : Option Entry) :
      read .table (.ofLine entry) after = (read .table .start rest).map (entry.toList ++ ·) := by
    apply read_of_feed (next?_of_stops hstops)
    cases entry <;> simp [Place.feed?, Place.ofLine, Place.complete?, h]
  simp only [read_start hbody hstops, hend]

/-- A line cannot end with a carriage return alone. -/
theorem read_table_of_lone_return (hbody : ∀ c ∈ body, inLine c = true)
    (h : takeFeed? ('\r' :: rest) = none) : read .table .start (body ++ '\r' :: rest) = none := by
  have hstops : Stops ('\r' :: rest) := by
    rintro c hc
    cases hc
    rfl
  have hstuck (place : Place) : read .table place ('\r' :: rest) = none := by
    have hfeed : place.feed? .table ('\r' :: rest) = none := by simp [Place.feed?, h]
    exact read_of_stuck (next?_of_stops hstops) hfeed (ignored?_eq_none_of_stops hstops)
  simp only [read_start hbody hstops, hstuck, Option.bind_fun_none]

theorem not_mem_of_inLine {c : Char} (hbody : ∀ c ∈ body, inLine c = true)
    (hc : inLine c = false) : c ∉ body := by
  intro hmem
  rw [hbody c hmem] at hc
  cases hc

theorem dropReturn_of_not_mem (h : '\r' ∉ body) : dropReturn body = body :=
  if_neg fun hlast ↦ h (List.mem_of_getLast? hlast)

/-- Only the last character of a line can be taken off. -/
theorem return_mem_dropReturn (body : List Char) (h : rest ≠ []) :
    '\r' ∈ dropReturn (body ++ '\r' :: rest) := by
  unfold dropReturn
  split
  · rw [List.append_cons, List.dropLast_append_of_ne_nil h]
    simp
  · simp

theorem wholeLine?_of_inLine (hbody : ∀ c ∈ body, inLine c = true) (h : dropReturn text = body) :
    wholeLine? text = (parseLine body).toOption := by
  rw [wholeLine?, h, if_neg (not_mem_of_inLine hbody rfl)]

/-- The first line that a table is cut into at its feeds holds what the grammar makes of it. -/
theorem wholeEntries_of_feed (number : Nat) (hbody : ∀ c ∈ body, inLine c = true)
    (h : takeFeed? after = some rest) :
    (wholeEntries number (Text.feedLines (body ++ after))).toOption =
      (parseLine body).toOption.bind fun entry ↦
        (wholeEntries (number + 1) (Text.feedLines rest)).toOption.map (entry.toList ++ ·) := by
  have hfeed : '\n' ∉ body := not_mem_of_inLine hbody rfl
  have hreturn : '\r' ∉ body := not_mem_of_inLine hbody rfl
  have hfirst : ∃ line, Text.feedLines (body ++ after) = line :: Text.feedLines rest ∧
      dropReturn line = body := by
    unfold takeFeed? at h
    split at h
    · cases h
      exact ⟨body, Text.feedLines_append_feed hfeed, dropReturn_of_not_mem hreturn⟩
    · cases h
      refine ⟨body ++ ['\r'], ?_, ?_⟩
      · have hfeed' : '\n' ∉ body ++ ['\r'] := by simp [hfeed]
        simpa using Text.feedLines_append_feed hfeed'
      · simp [dropReturn]
    · cases h
  obtain ⟨line, hlines, hline⟩ := hfirst
  rw [hlines, wholeEntries, wholeLine?_of_inLine hbody hline]
  cases (parseLine body).toOption with
  | none => rfl
  | some entry =>
    cases wholeEntries (number + 1) (Text.feedLines rest) <;> rfl

/-- A carriage return inside a line is out of place. -/
theorem wholeEntries_of_lone_return (number : Nat) (hbody : ∀ c ∈ body, inLine c = true)
    (h : takeFeed? ('\r' :: rest) = none) (hends : Text.EndsLines ('\r' :: rest)) :
    (wholeEntries number (Text.feedLines (body ++ '\r' :: rest))).toOption = none := by
  cases rest with
  | nil => cases hends '\r' rfl
  | cons c more =>
    have hc : c ≠ '\n' := by
      rintro rfl
      cases h
    obtain ⟨first, others, hmore⟩ := Text.exists_feedLines_cons more hc
    have hbody' : '\n' ∉ body := not_mem_of_inLine hbody rfl
    have hfeed : '\n' ∉ body ++ ['\r'] := by simp [hbody']
    have hlines : Text.feedLines (body ++ '\r' :: c :: more) =
        (body ++ '\r' :: c :: first) :: others := by
      simpa using Text.feedLines_append_of_cons hfeed hmore
    have hline : wholeLine? (body ++ '\r' :: c :: first) = none :=
      if_pos (return_mem_dropReturn body (List.cons_ne_nil c first))
    rw [hlines, wholeEntries, hline]
    rfl

/-- The grammar of a table accepts what `wholeEntries` accepts, as the same entries. -/
theorem read_table (number : Nat) (text : List Char) (h : Text.EndsLines text) :
    read .table .start text = (wholeEntries number (Text.feedLines text)).toOption := by
  -- The induction removes the first line with its end.
  induction hlength : text.length using Nat.strong_induction_on generalizing number text with
  | _ length ih =>
    have hbody : ∀ c ∈ text.takeWhile inLine, inLine c = true :=
      fun c hc ↦ List.mem_takeWhile_imp hc
    have htext : text.takeWhile inLine ++ text.dropWhile inLine = text :=
      List.takeWhile_append_dropWhile
    generalize text.takeWhile inLine = body at hbody htext
    have hstop := List.head?_dropWhile_not inLine text
    cases hafter : text.dropWhile inLine with
    | nil =>
      rw [hafter, List.append_nil] at htext
      subst htext
      cases hlast : body.getLast? with
      | none =>
        rw [List.getLast?_eq_none_iff] at hlast
        subst hlast
        exact read_of_stuck rfl rfl rfl
      | some c =>
        rw [h c hlast] at hlast
        exact absurd (List.mem_of_getLast? hlast) (not_mem_of_inLine hbody rfl)
    | cons c after =>
      rw [hafter] at htext hstop
      subst htext
      cases hfeed : takeFeed? (c :: after) with
      | some rest =>
        have hshorter : rest.length < length := by
          have := length_lt_of_takeFeed?_eq_some hfeed
          rw [List.length_append] at hlength
          omega
        have hends : Text.EndsLines rest :=
          h.of_suffix ((suffix_of_takeFeed?_eq_some hfeed).trans (List.suffix_append _ _))
        rw [read_table_of_feed hbody hfeed, wholeEntries_of_feed number hbody hfeed,
          ih rest.length hshorter (number + 1) rest hends rfl]
      | none =>
        have hc : c = '\r' := by
          have hfirst : inLine c = false := hstop
          have hne : c ≠ '\n' := by
            rintro rfl
            cases hfeed
          simpa [inLine, hne] using hfirst
        subst hc
        have hends : Text.EndsLines ('\r' :: after) := h.of_suffix (List.suffix_append _ _)
        rw [read_table_of_lone_return hbody hfeed,
          wholeEntries_of_lone_return number hbody hfeed hends]

end Table

end CompiledScript.Names.Grammar
