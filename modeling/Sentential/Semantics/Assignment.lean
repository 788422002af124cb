/-!
# Assignments

An `Assignment` gives truth values to finitely many names and keeps them in the order in which the
names were first added. `Assignment.row names r` reads the binary digits of `r` as the values of the
names, the first name being the most significant, and `Assignment.rows` lists the rows in
ascending order, so that the first name varies slowest.
-/

namespace Sentential

/-- Truth values of names, in the order in which the names were added. -/
structure Assignment where
  entries : List (String × Bool)
  deriving DecidableEq

namespace Assignment

/-- The value of a name. -/
def value? (a : Assignment) (name : String) : Option Bool := a.entries.lookup name

/-- Sets the value of a name among entries: in place if the name is there, at the end otherwise. -/
def setEntry (name : String) (value : Bool) : List (String × Bool) → List (String × Bool)
  | [] => [(name, value)]
  | entry :: rest =>
      if entry.1 = name then (name, value) :: rest else entry :: setEntry name value rest

/-- Sets the value of a name. -/
def set (a : Assignment) (name : String) (value : Bool) : Assignment :=
  ⟨setEntry name value a.entries⟩

/-- Sets values one after the other, from the empty assignment; the last value of a name counts. -/
def ofList (pairs : List (String × Bool)) : Assignment :=
  pairs.foldl (fun a pair => a.set pair.1 pair.2) ⟨[]⟩

/-- The last `width` binary digits of a number, the most significant first. -/
def binaryDigits (width r : Nat) : List Bool :=
  (List.range width).map fun i => r.testBit (width - 1 - i)

/-- The assignment whose values are the binary digits of `r`. -/
def row (names : List String) (r : Nat) : Assignment :=
  ofList (names.zip (binaryDigits names.length r))

/-- The number of assignments of some number of names. -/
def rowCount (names : Nat) : Nat := Nat.pow 2 names

/-- Every assignment of the names, in ascending order of rows. -/
def rows (names : List String) : List Assignment :=
  (List.range (rowCount names.length)).map (row names)

/-- A name that is set has the value it was given, and other names keep theirs. -/
theorem value?_set (a : Assignment) (name other : String) (value : Bool) :
    (a.set name value).value? other = if other = name then some value else a.value? other := by
  obtain ⟨entries⟩ := a
  simp only [set, value?]
  induction entries with
  | nil =>
      by_cases h : other = name
      · simp [setEntry, h]
      · have hb : (other == name) = false := by simpa using h
        simp [setEntry, List.lookup_cons, h, hb]
  | cons entry rest ih =>
      obtain ⟨n, v⟩ := entry
      by_cases hn : n = name
      · subst hn
        by_cases h : other = n
        · simp [setEntry, h]
        · have hb : (other == n) = false := by simpa using h
          simp [setEntry, List.lookup_cons, h, hb]
      · simp only [setEntry, if_neg hn]
        by_cases h : other = n
        · simp [h, hn]
        · have hb : (other == n) = false := by simpa using h
          simp only [List.lookup_cons, hb]
          exact ih

theorem length_rows (names : List String) :
    (rows names).length = rowCount names.length := by
  simp [rows]

end Assignment

end Sentential
