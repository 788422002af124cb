import Sentential.Proofs.Trimming

/-!
# Windows and the texts they hold

`Source.Holds text w cs` says that the window `w` lies inside the source and that its characters are
`cs`. A window inside the source holds its slice (`holds_slice`), the parts of a concatenation are
held by the parts of the window (`Holds.left`, `Holds.right`), and the core of a window holds the
trimmed text (`Holds.core`).
-/

namespace Sentential

namespace Source

open Text

/-- The window lies inside the source and holds the given characters. -/
structure Holds (text : Source) (w : Window) (cs : List Char) : Prop where
  /-- The characters of the source around the window. -/
  context : ∃ before after, text.chars.toList = before ++ cs ++ after ∧ before.length = w.start
  /-- The window is as long as its text. -/
  stop_eq : w.stop = w.start + cs.length

variable {text : Source} {w : Window} {cs : List Char}

theorem Holds.slice_eq (h : text.Holds w cs) : text.slice w = cs := by
  obtain ⟨before, after, hchars, hbefore⟩ := h.context
  rw [slice, Array.toList_extract, List.extract_eq_take_drop, hchars, ← hbefore, List.append_assoc,
    List.drop_left, h.stop_eq, ← hbefore, Nat.add_sub_cancel_left, List.take_left]

/-- A window inside the source holds its slice. -/
theorem holds_slice (hw : w.start ≤ w.stop) (hstop : w.stop ≤ text.size) :
    text.Holds w (text.slice w) := by
  have hlen : (text.slice w).length = w.stop - w.start := by
    rw [length_slice, Nat.min_eq_left hstop]
  refine ⟨⟨text.chars.toList.take w.start, text.chars.toList.drop w.stop, ?_, ?_⟩, ?_⟩
  · rw [slice, Array.toList_extract, List.extract_eq_take_drop, List.append_assoc]
    have hdrop : text.chars.toList.drop w.stop =
        (text.chars.toList.drop w.start).drop (w.stop - w.start) := by
      rw [List.drop_drop, Nat.add_sub_cancel' hw]
    rw [hdrop, List.take_append_drop, List.take_append_drop]
  · rw [List.length_take, Array.length_toList]
    have : w.start ≤ text.chars.size := Nat.le_trans hw hstop
    omega
  · omega

theorem holds_whole (s : String) : (ofString s).Holds (ofString s).whole s.toList := by
  refine ⟨⟨[], [], ?_, rfl⟩, ?_⟩
  · simp [ofString]
  · simp [whole, ofString, size]

theorem size_ofString (s : String) : (ofString s).size = s.length := by
  simp [ofString, size, String.length_toList]

/-- A window that holds a text ends inside the source. -/
theorem Holds.stop_le (h : text.Holds w cs) : w.stop ≤ text.size := by
  obtain ⟨before, after, hchars, hbefore⟩ := h.context
  have hsize := congrArg List.length hchars
  simp only [Array.length_toList, List.length_append] at hsize
  rw [h.stop_eq, size]
  omega

/-- The beginning of a window holds the beginning of its text. -/
theorem Holds.left {start stop : Nat} {as bs : List Char}
    (h : text.Holds ⟨start, stop⟩ (as ++ bs)) : text.Holds ⟨start, start + as.length⟩ as := by
  obtain ⟨before, after, hchars, hbefore⟩ := h.context
  refine ⟨⟨before, bs ++ after, ?_, hbefore⟩, rfl⟩
  simpa only [List.append_assoc] using hchars

/-- The end of a window holds the end of its text. -/
theorem Holds.right {start stop : Nat} {as bs : List Char}
    (h : text.Holds ⟨start, stop⟩ (as ++ bs)) : text.Holds ⟨start + as.length, stop⟩ bs := by
  obtain ⟨before, after, hchars, hbefore⟩ := h.context
  refine ⟨⟨before ++ as, after, ?_, ?_⟩, ?_⟩
  · simpa only [List.append_assoc] using hchars
  · rw [List.length_append, hbefore]
  · rw [h.stop_eq, List.length_append, Nat.add_assoc]

/-- The part of a window after a character. -/
theorem Holds.tail {start stop : Nat} {as bs : List Char} {c : Char}
    (h : text.Holds ⟨start, stop⟩ (as ++ c :: bs)) :
    text.Holds ⟨start + as.length + 1, stop⟩ bs := by
  have hsplit : as ++ c :: bs = (as ++ [c]) ++ bs := by simp
  rw [hsplit] at h
  have := h.right
  rwa [List.length_append] at this

/-- The part of a window between its outer characters. -/
theorem Holds.inside {first last : Char} (h : text.Holds w (first :: cs ++ [last])) :
    text.Holds (inside w) cs := by
  obtain ⟨before, after, hchars, hbefore⟩ := h.context
  have hstop := h.stop_eq
  rw [List.cons_append, List.length_cons, List.length_append, List.length_singleton] at hstop
  refine ⟨⟨before ++ [first], last :: after, ?_, ?_⟩, ?_⟩
  · simpa only [List.append_assoc, List.cons_append, List.nil_append] using hchars
  · rw [List.length_append, hbefore]
    rfl
  · simp only [Source.inside]
    omega

/-! ## The core of a window -/

/-- Where the core of a window lies, given the blanks around it. -/
theorem core_eq {pre body post : List Char} (h : text.Holds w (pre ++ body ++ post))
    (hpre : isAllBlank pre = true) (hpost : isAllBlank post = true) (hbody : Trimmed body)
    (hne : body ≠ []) :
    text.core w = ⟨w.start + pre.length, w.start + pre.length + body.length⟩ := by
  have hleft : trimLeft (pre ++ body ++ post) = body ++ post := by
    rw [List.append_assoc, trimLeft_append hpre]
    obtain ⟨first, rest, rfl⟩ := List.exists_cons_of_ne_nil hne
    exact trimLeft_of_head hbody.1
  have hright : trimRight (body ++ post) = body := by
    rw [trimRight_append hpost, trimRight_of_last hbody.2]
  have hlen : (pre ++ body ++ post).length - (body ++ post).length = pre.length := by
    rw [List.append_assoc, List.length_append, Nat.add_sub_cancel]
  simp only [core, h.slice_eq, hleft, hright, hlen]

/-- The core of a window holds the trimmed text. -/
theorem Holds.core (h : text.Holds w cs) : text.Holds (text.core w) (trim cs) := by
  obtain ⟨pre, post, hpre, hpost, hsplit, htrimmed⟩ := exists_trim cs
  by_cases hne : trim cs = []
  · have hleft : trimLeft cs = [] := by
      have hblank : isAllBlank cs = true := trim_eq_nil_iff.1 hne
      have hnil := trimLeft_append hblank []
      rw [List.append_nil] at hnil
      exact hnil
    obtain ⟨before, after, hchars, hbefore⟩ := h.context
    have hcore : text.core w = ⟨w.start + cs.length, w.start + cs.length⟩ := by
      simp only [Source.core, h.slice_eq, hleft, List.length_nil, Nat.sub_zero]
      rfl
    rw [hcore, hne]
    refine ⟨⟨before ++ cs, after, ?_, ?_⟩, rfl⟩
    · simpa only [List.append_nil] using hchars
    · rw [List.length_append, hbefore]
  · have hsplit' : text.Holds w (pre ++ trim cs ++ post) := by rwa [← hsplit]
    rw [core_eq hsplit' hpre hpost htrimmed hne]
    have hassoc : text.Holds ⟨w.start, w.stop⟩ (pre ++ (trim cs ++ post)) := by
      rwa [← List.append_assoc]
    exact hassoc.right.left

/-- The core is empty exactly if the window holds nothing but blanks. -/
theorem core_start_eq_stop_iff (h : text.Holds w cs) :
    (text.core w).start = (text.core w).stop ↔ isAllBlank cs = true := by
  rw [← trim_eq_nil_iff, h.core.stop_eq, ← List.length_eq_zero_iff]
  omega

end Source

end Sentential
