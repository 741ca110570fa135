import DepBundle.Text.Segment
import Mathlib.Data.List.Basic
/-!
# Text — cutting, joining and replacing

Cutting at a character is the library's `List.splitOn`, so pieces without
the separator that are joined by it are found again
(`split_intercalate`). What follows a word is what the text goes on with
(`after?_eq_some_iff`). Words are replaced in what stands before a text as
if it stood alone, where that text lacks their last character
(`replaceAll_append`), and in the pieces of a text each by itself, where they
lack the separator (`split_replaceAll`). What a word is replaced by can be
told from the text that comes of it, even after other words were replaced,
where it ends in digits (`MarkedBy`).
-/

namespace DepBundle.Text

variable {sep : Char} {parts : List String}

/-- What follows a word is what the text goes on with after it. -/
theorem after?_eq_some_iff {word cs rest : List Char} :
    after? word cs = some rest ↔ cs = word ++ rest := by
  induction word generalizing cs with
  | nil => simp [after?]
  | cons w ws ih =>
    cases cs with
    | nil => simp [after?]
    | cons c cs =>
      rw [after?, List.cons_append, List.cons.injEq]
      split
      · rename_i h
        rw [ih, and_iff_right h.symm]
      · rename_i h
        exact iff_of_false (by simp) fun hcons => h hcons.1.symm

theorem dropPrefix?_isSome_iff {word s : String} :
    (dropPrefix? word s).isSome ↔ ∃ rest, s.toList = word.toList ++ rest := by
  simp only [dropPrefix?, Option.isSome_map, Option.isSome_iff_exists, after?_eq_some_iff]

theorem pieces_eq_splitOn (sep : Char) (cs : List Char) : pieces sep cs = cs.splitOn sep := by
  induction cs with
  | nil => rfl
  | cons c cs ih =>
    rw [pieces, List.splitOn_cons_eq_if_modifyHead, ih]
    by_cases hc : c = sep
    · rw [if_pos hc, if_pos (beq_iff_eq.2 hc)]
    · rw [if_neg hc, if_neg (fun h => hc (beq_iff_eq.1 h))]
      cases hsplit : cs.splitOn sep with
      | nil => exact absurd hsplit (List.splitOn_ne_nil sep cs)
      | cons piece rest => rfl

/-- No piece has the separator inside. -/
theorem not_mem_of_mem_pieces {cs piece : List Char} (h : piece ∈ pieces sep cs) :
    sep ∉ piece := by
  induction cs generalizing piece with
  | nil => simp_all [pieces]
  | cons c cs ih =>
    rw [pieces] at h
    split at h
    · rcases List.mem_cons.1 h with rfl | h
      · exact List.not_mem_nil
      · exact ih h
    · rename_i hc
      split at h
      · rw [List.mem_singleton.1 h, List.mem_singleton]
        exact Ne.symm hc
      · rename_i first rest heq
        rw [heq] at ih
        rcases List.mem_cons.1 h with rfl | h
        · rw [List.mem_cons]
          rintro (he | hmem)
          · exact hc he.symm
          · exact ih (List.mem_cons_self ..) hmem
        · exact ih (List.mem_cons_of_mem _ h)

/-- What stands in a piece stands in the text. -/
theorem mem_of_mem_pieces {cs piece : List Char} {c : Char} (h : piece ∈ pieces sep cs)
    (hc : c ∈ piece) : c ∈ cs := by
  induction cs generalizing piece with
  | nil =>
    rw [pieces, List.mem_singleton] at h
    rwa [h] at hc
  | cons d cs ih =>
    rw [pieces] at h
    split at h
    · rcases List.mem_cons.1 h with rfl | h
      · cases hc
      · exact List.mem_cons_of_mem _ (ih h hc)
    · split at h
      · rw [List.mem_singleton.1 h, List.mem_singleton] at hc
        exact hc ▸ List.mem_cons_self ..
      · rename_i first rest heq
        rw [heq] at ih
        rcases List.mem_cons.1 h with rfl | h
        · rcases List.mem_cons.1 hc with rfl | hc
          · exact List.mem_cons_self ..
          · exact List.mem_cons_of_mem _ (ih (List.mem_cons_self ..) hc)
        · exact List.mem_cons_of_mem _ (ih (List.mem_cons_of_mem _ h) hc)

/-- A text without the separator is one piece. -/
theorem pieces_of_notMem {cs : List Char} (h : sep ∉ cs) : pieces sep cs = [cs] := by
  induction cs with
  | nil => rfl
  | cons c cs ih =>
    rw [List.mem_cons, not_or] at h
    rw [pieces, if_neg (Ne.symm h.1), ih h.2]

/-- A separator parts the pieces on its two sides. -/
theorem pieces_append (sep : Char) (front back : List Char) :
    pieces sep (front ++ sep :: back) = pieces sep front ++ pieces sep back := by
  induction front with
  | nil => simp [pieces]
  | cons c front ih =>
    rw [List.cons_append, pieces, pieces, ih]
    split
    · rfl
    · cases hfront : pieces sep front with
      | nil =>
        rw [pieces_eq_splitOn] at hfront
        exact absurd hfront (List.splitOn_ne_nil sep front)
      | cons piece rest => rfl

/-- **What is joined by a separator is found again by cutting.** -/
theorem split_intercalate (hne : parts ≠ []) (hsep : ∀ part ∈ parts, sep ∉ part.toList) :
    split sep ((String.singleton sep).intercalate parts) = parts := by
  have hsplit : ([sep].intercalate (parts.map String.toList)).splitOn sep =
      parts.map String.toList := by
    refine List.splitOn_intercalate sep ?_ (by simpa using hne)
    intro piece hpiece
    obtain ⟨part, hpart, rfl⟩ := List.mem_map.1 hpiece
    exact hsep part hpart
  rw [split, pieces_eq_splitOn, String.toList_intercalate, String.toList_singleton, hsplit,
    List.map_map]
  simp [Function.comp_def]

/-- Where empty parts do not count and there are none, not even the number
of parts is lost. -/
theorem filter_split_intercalate {keep : String → Bool} (hempty : keep "" = false)
    (hpart : ∀ part ∈ parts, keep part ∧ sep ∉ part.toList) :
    (split sep ((String.singleton sep).intercalate parts)).filter keep = parts := by
  by_cases hne : parts = []
  · subst hne
    simp [split, pieces, hempty]
  · rw [split_intercalate hne fun part h => (hpart part h).2, List.filter_eq_self]
    exact fun part h => (hpart part h).1

/-! ## Replacing -/

section

variable {w e : Char} {ws by' s rest : List Char} {skip : ℕ}

/-- A word does not occur where its last character does not. -/
theorem replaceWord_of_notMem (hlast : (w :: ws).getLast? = some e) (h : e ∉ s) :
    replaceWord w ws by' 0 s = s := by
  induction s with
  | nil => rfl
  | cons c s ih =>
    have hmem : e ∈ w :: ws := List.mem_of_getLast? hlast
    have hnot : ¬ (after? (w :: ws) (c :: s)).isSome := by
      rw [Option.isSome_iff_exists]
      rintro ⟨tail, htail⟩
      rw [after?_eq_some_iff] at htail
      exact h (htail ▸ List.mem_append_left _ hmem)
    rw [replaceWord, if_neg hnot, ih fun hs => h (List.mem_cons_of_mem _ hs)]

/-- **Texts are replaced one after the other** where no word that begins in
the first ends in the second. -/
theorem replaceWord_append_of
    (h : ∀ front back, w :: ws = front ++ back → front ≠ [] → back ≠ [] → ¬ back <+: rest)
    (hskip : skip ≤ s.length) :
    replaceWord w ws by' skip (s ++ rest) =
      replaceWord w ws by' skip s ++ replaceWord w ws by' 0 rest := by
  induction s generalizing skip with
  | nil =>
    obtain rfl : skip = 0 := by simpa using hskip
    rfl
  | cons c s ih =>
    cases skip with
    | succ skip => exact ih (by simpa using hskip)
    | zero =>
      rw [List.cons_append, replaceWord, replaceWord]
      by_cases halone : (after? (w :: ws) (c :: s)).isSome
      · obtain ⟨tail, htail⟩ := Option.isSome_iff_exists.1 halone
        rw [after?_eq_some_iff] at htail
        have hboth : (after? (w :: ws) (c :: (s ++ rest))).isSome := by
          rw [Option.isSome_iff_exists]
          refine ⟨tail ++ rest, after?_eq_some_iff.2 ?_⟩
          rw [← List.cons_append, htail, List.append_assoc]
        have hlength : ws.length ≤ s.length := by
          have hcons := congrArg List.length htail
          simp only [List.length_cons, List.length_append] at hcons
          omega
        rw [if_pos halone, if_pos hboth, ih hlength, List.append_assoc]
      · have hneither : ¬ (after? (w :: ws) (c :: (s ++ rest))).isSome := by
          rw [Option.isSome_iff_exists]
          rintro ⟨tail, htail⟩
          rw [after?_eq_some_iff, ← List.cons_append] at htail
          rcases List.append_eq_append_iff.1 htail with ⟨more, hword, hrest⟩ | ⟨more, hs, -⟩
          · -- the word ends past the beginning of the rest, unless it ends before
            by_cases hmore : more = []
            · rw [hmore, List.append_nil] at hword
              refine halone (Option.isSome_iff_exists.2 ⟨[], after?_eq_some_iff.2 ?_⟩)
              rw [hword, List.append_nil]
            · exact h _ more hword (List.cons_ne_nil c s) hmore ⟨tail, hrest.symm⟩
          · exact halone (Option.isSome_iff_exists.2 ⟨more, after?_eq_some_iff.2 hs⟩)
        rw [if_neg halone, if_neg hneither, ih (Nat.zero_le _), List.cons_append]

/-- **A word does not run into a text without its last character.** So what
stands before that text is replaced as if it stood alone. -/
theorem replaceWord_append (hlast : (w :: ws).getLast? = some e) (h : e ∉ rest)
    (hskip : skip ≤ s.length) :
    replaceWord w ws by' skip (s ++ rest) = replaceWord w ws by' skip s ++ rest := by
  rw [replaceWord_append_of ?_ hskip, replaceWord_of_notMem hlast h]
  rintro front back hword - hback hstart
  rw [hword, List.getLast?_append_of_ne_nil _ hback] at hlast
  exact h (hstart.subset (List.mem_of_getLast? hlast))

/-- **A character that a word lacks stays,** and parts what is replaced before
it from what is replaced after it. -/
theorem replaceWord_parted (hsep : sep ∉ w :: ws) (hskip : skip ≤ s.length) :
    replaceWord w ws by' skip (s ++ sep :: rest) =
      replaceWord w ws by' skip s ++ sep :: replaceWord w ws by' 0 rest := by
  have hnot : ¬ (after? (w :: ws) (sep :: rest)).isSome := by
    rw [Option.isSome_iff_exists]
    rintro ⟨tail, htail⟩
    rw [after?_eq_some_iff, List.cons_append] at htail
    exact hsep ((List.cons.inj htail).1 ▸ List.mem_cons_self ..)
  rw [replaceWord_append_of ?_ hskip, replaceWord, if_neg hnot]
  rintro front back hword - hback ⟨tail, htail⟩
  obtain ⟨c, back, rfl⟩ := List.exists_cons_of_ne_nil hback
  rw [hword, (List.cons.inj htail).1] at hsep
  exact hsep (List.mem_append_right _ (List.mem_cons_self ..))

/-- **A text without the characters of a word stays,** and parts what is
replaced before it from what is replaced after it. -/
theorem replaceWord_parted_text {mark : List Char} (hne : mark ≠ [])
    (hmark : ∀ c ∈ mark, c ∉ w :: ws) :
    replaceWord w ws by' 0 (s ++ (mark ++ rest)) =
      replaceWord w ws by' 0 s ++ (mark ++ replaceWord w ws by' 0 rest) := by
  induction mark generalizing s with
  | nil => exact absurd rfl hne
  | cons c mark ih =>
    rw [List.cons_append, replaceWord_parted (hmark c (List.mem_cons_self ..)) (Nat.zero_le _)]
    refine congrArg _ ?_
    by_cases hmore : mark = []
    · rw [hmore]
      rfl
    · have hrest := ih (s := []) hmore fun d hd => hmark d (List.mem_cons_of_mem _ hd)
      rw [List.nil_append] at hrest
      rw [hrest]
      rfl

theorem mem_replaceWord {c : Char} (hc : c ∈ s) (hword : c ∉ w :: ws) :
    c ∈ replaceWord w ws by' 0 s := by
  obtain ⟨front, back, rfl⟩ := List.append_of_mem hc
  rw [replaceWord_parted hword (Nat.zero_le _)]
  exact List.mem_append_right _ (List.mem_cons_self ..)

theorem notMem_replaceWord (hs : sep ∉ s) (hby : sep ∉ by') :
    sep ∉ replaceWord w ws by' skip s := by
  fun_induction replaceWord w ws by' skip s with
  | case1 => exact List.not_mem_nil
  | case2 skip c s ih => exact ih fun h => hs (List.mem_cons_of_mem _ h)
  | case3 c s _ ih =>
    rw [List.mem_append, not_or]
    exact ⟨hby, ih fun h => hs (List.mem_cons_of_mem _ h)⟩
  | case4 c s _ ih =>
    rw [List.mem_cons, not_or] at hs ⊢
    exact ⟨hs.1, ih hs.2⟩

/-- **Cutting and replacing** change places where neither the word nor what it
is replaced by has the separator. -/
theorem pieces_replaceWord (hsep : sep ∉ w :: ws) (hby : sep ∉ by') :
    pieces sep (replaceWord w ws by' 0 s) = (pieces sep s).map (replaceWord w ws by' 0) := by
  induction hn : s.length using Nat.strongRecOn generalizing s with
  | ind n ih =>
    by_cases hs : sep ∈ s
    · obtain ⟨front, back, rfl⟩ := List.append_of_mem hs
      rw [List.length_append, List.length_cons] at hn
      rw [replaceWord_parted hsep (Nat.zero_le _), pieces_append, pieces_append, List.map_append,
        ih _ (by omega) rfl, ih _ (by omega) rfl]
    · rw [pieces_of_notMem hs, pieces_of_notMem (notMem_replaceWord hs hby)]
      rfl

end

/-! ## Marks

A text that is made with a mark in some places, and in which words without
the characters of the mark are replaced, still has the mark in as many
places. -/

section

variable {w : Char} {ws by' : List Char}

/-- Texts with a mark before each but the first. -/
def marked (mark first : List Char) (more : List (List Char)) : List Char :=
  first ++ more.flatMap (mark ++ ·)

theorem marked_cons {mark first next : List Char} {more : List (List Char)} :
    marked mark first (next :: more) = first ++ (mark ++ marked mark next more) := by
  simp [marked]

/-- Marks are kept where a word has none of their characters. -/
theorem replaceWord_marked {mark first : List Char} {more : List (List Char)} (hne : mark ≠ [])
    (hmark : ∀ c ∈ mark, c ∉ w :: ws) :
    replaceWord w ws by' 0 (marked mark first more) =
      marked mark (replaceWord w ws by' 0 first) (more.map (replaceWord w ws by' 0)) := by
  induction more generalizing first with
  | nil => simp [marked]
  | cons next more ih =>
    rw [marked_cons, replaceWord_parted_text hne hmark, ih, List.map_cons, marked_cons]

/-- What a word is replaced by marks where the word stood. -/
theorem exists_replaceWord_marked (w : Char) (ws front s : List Char) (skip : ℕ) :
    ∃ first more, (∀ mark, replaceWord w ws (front ++ mark) skip s = marked mark first more) ∧
      (skip = 0 → hasWord (w :: ws) s → more ≠ []) := by
  induction s generalizing skip with
  | nil => exact ⟨[], [], fun mark => by cases skip <;> rfl, by simp [hasWord]⟩
  | cons c s ih =>
    cases skip with
    | succ skip =>
      obtain ⟨first, more, heq, -⟩ := ih skip
      exact ⟨first, more, heq, by simp⟩
    | zero =>
      by_cases hhere : (after? (w :: ws) (c :: s)).isSome
      · obtain ⟨first, more, heq, -⟩ := ih ws.length
        refine ⟨front, first :: more, fun mark => ?_, by simp⟩
        rw [replaceWord, if_pos hhere, heq, marked_cons, List.append_assoc]
      · obtain ⟨first, more, heq, hmore⟩ := ih 0
        refine ⟨c :: first, more, fun mark => ?_, fun _ hword => hmore rfl ?_⟩
        · rw [replaceWord, if_neg hhere, heq]
          rfl
        · rw [hasWord, Bool.or_eq_true] at hword
          exact hword.resolve_left hhere

/-- **Marked texts say what they are marked with.** -/
theorem marked_inj {mark mark' first : List Char} {more : List (List Char)} (hmore : more ≠ [])
    (h : marked mark first more = marked mark' first more) : mark = mark' := by
  have hlength : ∀ mark, (marked mark first more).length =
      first.length + (more.length * mark.length + (more.map List.length).sum) := by
    intro mark
    rw [marked, List.length_append, List.length_flatMap]
    refine congrArg _ ?_
    clear h hmore
    induction more with
    | nil => simp
    | cons next more ih =>
      rw [List.map_cons, List.sum_cons, ih, List.map_cons, List.sum_cons, List.length_append,
        List.length_cons]
      rw [Nat.add_mul, Nat.one_mul]
      omega
  have hsame : mark.length = mark'.length := by
    have htotal := congrArg List.length h
    rw [hlength, hlength] at htotal
    exact Nat.eq_of_mul_eq_mul_left (List.length_pos_iff.2 hmore) (by omega)
  obtain ⟨next, more, rfl⟩ := List.exists_cons_of_ne_nil hmore
  rw [marked_cons, marked_cons] at h
  exact (List.append_inj (List.append_cancel_left h) hsame).1

/-- A number is written with digits. -/
theorem isDigit_of_mem_toString {i : ℕ} : ∀ c ∈ (toString i).toList, c.isDigit := by
  intro c hc
  rw [Nat.toString_eq_repr, Nat.toList_repr] at hc
  exact Nat.isDigit_of_mem_toDigits (by decide) (by decide) hc

theorem toString_inj {i j : ℕ} (h : toString i = toString j) : i = j := by
  have hdigits := congrArg String.toList h
  rw [Nat.toString_eq_repr, Nat.toString_eq_repr, Nat.toList_repr, Nat.toList_repr] at hdigits
  rw [← Nat.ofDigitChars_ten_toDigits (n := i), hdigits, Nat.ofDigitChars_ten_toDigits]

theorem toList_toString_ne_nil (i : ℕ) : (toString i).toList ≠ [] := by
  rw [Nat.toString_eq_repr, Nat.toList_repr]
  exact Nat.toDigits_ne_nil

/-- A text that is the same whatever it is marked with, but for the marks
in it. They are made of digits. -/
def MarkedBy (text : List Char → String) : Prop :=
  ∃ first more, more ≠ [] ∧ ∀ mark, mark ≠ [] → (∀ c ∈ mark, c.isDigit) →
    (text mark).toList = marked mark first more

theorem MarkedBy.inj {text : List Char → String} {mark mark' : List Char} (h : MarkedBy text)
    (hne : mark ≠ []) (hne' : mark' ≠ []) (hdigits : ∀ c ∈ mark, c.isDigit)
    (hdigits' : ∀ c ∈ mark', c.isDigit) (heq : text mark = text mark') : mark = mark' := by
  obtain ⟨first, more, hmore, htext⟩ := h
  have hmarked : marked mark first more = marked mark' first more := by
    rw [← htext mark hne hdigits, ← htext mark' hne' hdigits', heq]
  exact marked_inj hmore hmarked

/-- **Words without digits are replaced between the marks.** -/
theorem MarkedBy.replaceAll {text : List Char → String} {word : String} (h : MarkedBy text)
    (hword : word.toList.all (!·.isDigit)) (by' : String) :
    MarkedBy fun mark => Text.replaceAll word by' (text mark) := by
  obtain ⟨first, more, hmore, htext⟩ := h
  cases hlist : word.toList with
  | nil =>
    refine ⟨first, more, hmore, fun mark hne hdigits => ?_⟩
    simp only [Text.replaceAll, hlist]
    exact htext mark hne hdigits
  | cons w ws =>
    refine ⟨replaceWord w ws by'.toList 0 first, more.map (replaceWord w ws by'.toList 0),
      by simpa using hmore, fun mark hne hdigits => ?_⟩
    simp only [Text.replaceAll, hlist]
    rw [String.toList_ofList, htext mark hne hdigits, replaceWord_marked hne]
    intro c hc hmem
    have hnot := List.all_eq_true.1 hword c (hlist ▸ hmem)
    rw [hdigits c hc] at hnot
    cases hnot

/-- **What a word is replaced by marks a text that has the word.** -/
theorem markedBy_replaceAll {word s : String} (front : String) (hne : word ≠ "")
    (h : hasWord word.toList s.toList) :
    MarkedBy fun mark => replaceAll word (front ++ String.ofList mark) s := by
  obtain ⟨w, ws, hlist⟩ := List.exists_cons_of_ne_nil (l := word.toList) (by simpa using hne)
  rw [hlist] at h
  obtain ⟨first, more, htext, hmore⟩ := exists_replaceWord_marked w ws front.toList s.toList 0
  refine ⟨first, more, hmore rfl h, fun mark _ _ => ?_⟩
  simp only [replaceAll, hlist]
  rw [String.toList_ofList, String.toList_append, String.toList_ofList, htext]

end

theorem replaceAll_append {word by' s rest : String} {e : Char}
    (hlast : word.toList.getLast? = some e) (h : e ∉ rest.toList) :
    replaceAll word by' (s ++ rest) = replaceAll word by' s ++ rest := by
  rw [replaceAll, replaceAll]
  cases hword : word.toList with
  | nil => simp [hword] at hlast
  | cons w ws =>
    rw [hword] at hlast
    refine String.toList_inj.1 ?_
    simp only [String.toList_ofList, String.toList_append]
    exact replaceWord_append hlast h (Nat.zero_le _)

/-- A word that a text lacks the last character of is not replaced in it. -/
theorem replaceAll_of_notMem {word by' s : String} {e : Char}
    (hlast : word.toList.getLast? = some e) (h : e ∉ s.toList) : replaceAll word by' s = s := by
  rw [replaceAll]
  cases hword : word.toList with
  | nil => rfl
  | cons w ws =>
    rw [hword] at hlast
    exact String.toList_inj.1 (by rw [String.toList_ofList, replaceWord_of_notMem hlast h])

/-- **Cutting and replacing** change places where neither the word nor what it
is replaced by has the separator. -/
theorem split_replaceAll {word by' s : String} (hword : sep ∉ word.toList)
    (hby : sep ∉ by'.toList) :
    split sep (replaceAll word by' s) = (split sep s).map (replaceAll word by') := by
  cases hlist : word.toList with
  | nil =>
    have hsame : ∀ s, replaceAll word by' s = s := fun s => by rw [replaceAll, hlist]
    rw [hsame, List.map_congr_left fun piece _ => hsame piece, List.map_id']
  | cons w ws =>
    have hreplace : ∀ s, replaceAll word by' s =
        String.ofList (replaceWord w ws by'.toList 0 s.toList) := fun s => by
      rw [replaceAll, hlist]
    rw [hlist] at hword
    rw [hreplace, split, String.toList_ofList, pieces_replaceWord hword hby, split, List.map_map,
      List.map_map]
    exact List.map_congr_left fun piece _ => by simp [hreplace]

theorem mem_replaceAll {word by' s : String} {c : Char} (hc : c ∈ s.toList)
    (hword : c ∉ word.toList) : c ∈ (replaceAll word by' s).toList := by
  rw [replaceAll]
  cases hlist : word.toList with
  | nil => exact hc
  | cons w ws =>
    rw [hlist] at hword
    rw [String.toList_ofList]
    exact mem_replaceWord hc hword

/-! ## Joined texts -/

/-- What stands in a joined text stands in a part or in the separator. -/
theorem mem_intercalate {word : String} {c : Char} (h : c ∈ (word.intercalate parts).toList) :
    c ∈ word.toList ∨ ∃ part ∈ parts, c ∈ part.toList := by
  induction parts with
  | nil => simp at h
  | cons part rest ih =>
    by_cases hrest : rest = []
    · subst hrest
      rw [String.intercalate_singleton] at h
      exact Or.inr ⟨part, List.mem_singleton_self _, h⟩
    · rw [String.intercalate_cons_of_ne_nil hrest, String.toList_append, String.toList_append,
        List.mem_append, List.mem_append] at h
      rcases h with (h | h) | h
      · exact Or.inr ⟨part, List.mem_cons_self .., h⟩
      · exact Or.inl h
      · refine (ih h).imp_right fun ⟨p, hp, hc⟩ => ?_
        exact ⟨p, List.mem_cons_of_mem _ hp, hc⟩

/-- What stands in a part stands in the joined text. -/
theorem mem_intercalate_of_mem {word part : String} {c : Char} (h : part ∈ parts)
    (hc : c ∈ part.toList) : c ∈ (word.intercalate parts).toList := by
  induction parts with
  | nil => simp at h
  | cons first rest ih =>
    by_cases hrest : rest = []
    · subst hrest
      rw [List.mem_singleton] at h
      rwa [String.intercalate_singleton, ← h]
    · rw [String.intercalate_cons_of_ne_nil hrest, String.toList_append, String.toList_append]
      rcases List.mem_cons.1 h with rfl | h
      · exact List.mem_append_left _ (List.mem_append_left _ hc)
      · exact List.mem_append_right _ (ih h)

end DepBundle.Text
