import CompiledScript.Script.Session

/-!
# The entry that a place in the code gets

The index of a string table is made entry by entry, and a place keeps the first entry that it gets.
So the index answers like a search through the entries, in their order, for the first one that cites
the place, whatever places are cited more than once.
-/

namespace CompiledScript.Session

/-- The first entry that cites a place. -/
def entryCiting? (entries : Array StringEntry) (reference : Int) : Option StringEntry :=
  entries.find? fun entry ↦ reference ∈ entry.references

/-- The text of the first entry that cites a place. -/
def textCiting? (entries : Array StringEntry) (reference : Int) : Option String :=
  (entryCiting? entries reference).map (·.text)

/-- An entry is given to the places that it cites and that have none yet. -/
theorem getElem?_indexEntry (index : StringIndex) (entry : StringEntry) (reference : Int) :
    (indexEntry index entry)[reference]? =
      index[reference]?.or (if reference ∈ entry.references then some entry else none) := by
  unfold indexEntry
  generalize entry.references = references
  induction references generalizing index with
  | nil => simp
  | cons place rest ih =>
    rw [List.foldl_cons, ih, Std.HashMap.getElem?_insertIfNew]
    by_cases hplace : place = reference
    · subst hplace
      by_cases hgiven : place ∈ index <;> simp [hgiven]
    · simp [hplace, Ne.symm hplace]

theorem getElem?_foldl_indexEntry (index : StringIndex) (entries : List StringEntry)
    (reference : Int) :
    (entries.foldl indexEntry index)[reference]? =
      index[reference]?.or (entries.find? fun entry ↦ reference ∈ entry.references) := by
  induction entries generalizing index with
  | nil => simp
  | cons entry rest ih =>
    rw [List.foldl_cons, ih, getElem?_indexEntry, Option.or_assoc, List.find?_cons]
    by_cases hcited : reference ∈ entry.references <;> simp [hcited]

/-- The index finds the first entry that cites a place. -/
theorem getElem?_indexOf (entries : Array StringEntry) (reference : Int) :
    (indexOf entries)[reference]? = entryCiting? entries reference := by
  unfold indexOf entryCiting?
  rw [← Array.foldl_toList, getElem?_foldl_indexEntry, Std.HashMap.getElem?_empty, Option.none_or,
    Array.find?_toList]

theorem text?_indexOf (entries : Array StringEntry) (reference : Int) :
    (indexOf entries).text? reference = textCiting? entries reference := by
  unfold StringIndex.text? textCiting?
  rw [getElem?_indexOf]

end CompiledScript.Session
