import SwiftAccess.Proofs.TokenEdit

/-!
# Reading a line around one word

A line that starts outside comments and strings and is plain code up to some point, meeting the
rest at white space, is read up to there as the words of that code with its literals cut out, and
from there on as the rest of the line would be read on its own, in the state those words leave
(`Lexer.rawScan_append_code`). When a keyword stands there as a whole word, it is one token
between the two parts (`Lexer.rawScan_keyword`). So replacing, inserting or
removing a keyword word changes exactly one token of the line and nothing after it: a keyword
word leaves the lexer's state as it found it.

The state a multiline string opened at the end of the line leaves is carried through the words
untouched (`Lexer.scanWords_inString`), so the tokens of a line's first words do not depend on how
the line ends (`Lexer.length_scanLine_plain`).
-/

namespace SwiftAccess

namespace Lexer

open Text

/-! ## The multiline string flag is carried through -/

theorem State.record_inString (st : State) (t : Token) (v : Bool) :
    ({ st with inString := v }).record t = ((st.record t).1, { (st.record t).2 with inString := v }) := by
  simp only [State.record]
  split <;> split <;> rfl

theorem State.skip_inString (st : State) (c : Char) (v : Bool) :
    ({ st with inString := v }).skip c = { st.skip c with inString := v } := by
  simp only [State.skip]
  split
  · rfl
  · split <;> rfl

/-- Reading characters never looks at the multiline string flag. -/
theorem scanChars_inString (v : Bool) (st : State) (cs : List Char) :
    scanChars { st with inString := v } cs =
      ((scanChars st cs).1, { (scanChars st cs).2.1 with inString := v }, (scanChars st cs).2.2) := by
  induction st, cs using scanChars.induct with
  | case1 st => simp [scanChars]
  | case2 st rest ih =>
    rw [scanChars.eq_2, scanChars.eq_2]
    exact ih
  | case3 st c rest hne hcomm fst after hbreak ih =>
    have hcomm' : ({ st with inString := v }).inComment = true := hcomm
    rw [scanChars_close hcomm' hne hbreak, scanChars_close hcomm hne hbreak]
    exact ih
  | case4 st c rest hne hcomm hbreak =>
    have hcomm' : ({ st with inString := v }).inComment = true := hcomm
    rw [scanChars_unclosed hcomm' hne hbreak, scanChars_unclosed hcomm hne hbreak]
  | case5 st c rest hne hcomm hslash =>
    have hc : st.inComment = false := Bool.eq_false_iff.2 hcomm
    have hc' : ({ st with inString := v }).inComment = false := hc
    rw [scanChars_lineComment hc' hslash, scanChars_lineComment hc hslash]
  | case6 st c rest hne hcomm hslash t after hread t₁ st₁ hrec ts st₂ flow hscan ih =>
    have hc : st.inComment = false := Bool.eq_false_iff.2 hcomm
    have hc' : ({ st with inString := v }).inComment = false := hc
    rw [scanChars_token hc' hread, scanChars_token hc hread, State.record_inString st t v, hrec]
    simp only [ih, hscan]
  | case7 st c rest hne hcomm hslash hread ih =>
    have hc : st.inComment = false := Bool.eq_false_iff.2 hcomm
    have hc' : ({ st with inString := v }).inComment = false := hc
    have hstart := startsNoMarker_of_guards hne hslash
    rw [scanChars_skip hc' hstart hread, scanChars_skip hc hstart hread,
      State.skip_inString st c v]
    exact ih

theorem scanWord_inString (v : Bool) (st : State) (w : List Char) :
    scanWord { st with inString := v } w =
      ((scanWord st w).1, { (scanWord st w).2.1 with inString := v }, (scanWord st w).2.2) := by
  have hc : ({ st with inString := v }).inComment = st.inComment := rfl
  unfold scanWord
  rw [hc]
  split
  · exact scanChars_inString v st w
  · split
    · rw [State.record_inString st _ v]
    · exact scanChars_inString v st w

theorem scanWords_inString (v : Bool) :
    ∀ (st : State) (ws : List (List Char)),
      scanWords { st with inString := v } ws =
        ((scanWords st ws).1, { (scanWords st ws).2 with inString := v })
  | _, [] => rfl
  | st, w :: ws => by
    rcases h : scanWord st w with ⟨ts, st', flow⟩
    cases flow with
    | lineComment => simp [scanWords, scanWord_inString v st w, h]
    | next => simp [scanWords, scanWord_inString v st w, h, scanWords_inString v st' ws]

/-- Reading words leaves the multiline string flag as it was. -/
theorem scanWords_inString_eq (st : State) (ws : List (List Char)) :
    (scanWords st ws).2.inString = st.inString := by
  have h := scanWords_inString st.inString st ws
  rw [show { st with inString := st.inString } = st from rfl] at h
  rw [h]

/-! ## The state a line's words are read in -/

section

variable {st : State}

theorem codeState_eq (hc : st.inComment = false) (hs : st.inString = false) (z : List Char) :
    codeState st z = { st with inString := (multilineOpening? z).isSome } := by
  simp only [codeState, codeOf, hc, Bool.false_eq_true, if_false, afterString, hs]
  cases multilineOpening? z with
  | none => cases st; simp_all
  | some _ => rfl

theorem codeState_inComment (hc : st.inComment = false) (hs : st.inString = false) (z : List Char) :
    (codeState st z).inComment = false := by
  rw [codeState_eq hc hs]
  exact hc

theorem codeState_parenDepth (hc : st.inComment = false) (hs : st.inString = false)
    (z : List Char) : (codeState st z).parenDepth = st.parenDepth := by
  rw [codeState_eq hc hs]

theorem codeWords_nil (hc : st.inComment = false) (hs : st.inString = false) :
    codeWords st [] = [] ∧ codeState st [] = st := by
  have hm : multilineOpening? [] = none := rfl
  simp [codeWords, codeText, codeState, codeOf, hc, afterString, hs, hm]

/-- A blank at the start of the rest of a line adds no word. -/
theorem codeWords_blank_cons (hc : st.inComment = false) (hs : st.inString = false) {c : Char}
    (hb : isBlank c = true) (z : List Char) :
    codeWords st (c :: z) = codeWords st z ∧ codeState st (c :: z) = codeState st z := by
  have hp : Plain [c] := by
    intro d hd
    rw [List.mem_singleton.1 hd]
    constructor <;> (rintro rfl; exact absurd hb (by decide))
  have := codeWords_append_code hc hs hp.plainCode (z := z) (.inl (by simpa using hb))
  rwa [hp.stripLiterals_eq, words_eq_nil (by simpa using hb), List.nil_append] at this

theorem not_mem_of_mem_words {x w : List Char} {c : Char} (hw : w ∈ words x) (hx : c ∉ x) :
    c ∉ w := by
  intro h
  have : c ∈ (words x).flatten := List.mem_flatten.2 ⟨w, hw, h⟩
  rw [words_flatten] at this
  exact hx (List.mem_of_mem_filter this)

/-- Up to plain code that meets the rest at white space, a line is read as the words of that code,
its literals cut out, and the rest is read from the state they leave. -/
theorem rawScan_append_code (hc : st.inComment = false) (hs : st.inString = false)
    {x z : List Char} (hx : PlainCode x) (hxz : Apart x z) :
    rawScan st (x ++ z) =
      ((scanWords (codeState st z) (words (stripLiterals x))).1 ++
        (scanWords (scanWords (codeState st z) (words (stripLiterals x))).2 (codeWords st z)).1,
       (scanWords (scanWords (codeState st z) (words (stripLiterals x))).2 (codeWords st z)).2) := by
  obtain ⟨hw, hstate⟩ := codeWords_append_code hc hs hx hxz
  have hslash : ∀ w ∈ words (stripLiterals x), '/' ∉ w := fun w hw' =>
    not_mem_of_mem_words hw' fun h => (hx.stripped _ h).2 rfl
  simp only [rawScan, hw, hstate]
  exact (scanWords_append _ (codeState_inComment hc hs z) _ _ hslash).1

/-- Up to a plain point that meets the rest at white space, a line is read as its words, and the
rest is read from the state they leave. -/
theorem rawScan_append (hc : st.inComment = false) (hs : st.inString = false) {x z : List Char}
    (hx : Plain x) (hxz : Apart x z) :
    rawScan st (x ++ z) =
      ((scanWords (codeState st z) (words x)).1 ++
        (scanWords (scanWords (codeState st z) (words x)).2 (codeWords st z)).1,
       (scanWords (scanWords (codeState st z) (words x)).2 (codeWords st z)).2) := by
  have h := rawScan_append_code hc hs hx.plainCode hxz
  rwa [hx.stripLiterals_eq] at h

theorem Keyword.plainCode_spelling (k : Keyword) : PlainCode k.spelling.toList :=
  (Keyword.spelling_word k).2.2.plainCode

/-- A keyword written as a whole word after plain code is one token, read in the state the words
before it leave; the rest is read from that same state. -/
theorem rawScan_keyword (hc : st.inComment = false) (hs : st.inString = false) {x z : List Char}
    (hx : PlainCode x) (hxe : x.getLast?.all isBlank = true) (hz : z.head?.all isBlank = true)
    (k : Keyword) :
    rawScan st (x ++ k.spelling.toList ++ z) =
      ((scanWords (codeState st z) (words (stripLiterals x))).1 ++
        ((scanWords (codeState st z) (words (stripLiterals x))).2.record (.keyword k)).1 ::
          (scanWords (scanWords (codeState st z) (words (stripLiterals x))).2 (codeWords st z)).1,
       (scanWords (scanWords (codeState st z) (words (stripLiterals x))).2 (codeWords st z)).2) := by
  have hplain := (Keyword.spelling_word k).2.2
  have hxk : PlainCode (x ++ k.spelling.toList) :=
    hx.append (Keyword.plainCode_spelling k) (.inl hxe)
  have hwords : words (stripLiterals (x ++ k.spelling.toList)) =
      words (stripLiterals x) ++ [k.spelling.toList] := by
    rw [hx.stripLiterals_append, hplain.stripLiterals_eq,
      words_append _ _ (.inl (stripLiterals_getLast_blank hxe)), words_spelling]
  have hslash : ∀ w ∈ words (stripLiterals x), '/' ∉ w := fun w hw' =>
    not_mem_of_mem_words hw' fun h => (hx.stripped _ h).2 rfl
  rw [rawScan_append_code hc hs hxk (.inr hz), hwords]
  obtain ⟨happ, hcw⟩ := scanWords_append _ (codeState_inComment hc hs z) _ [k.spelling.toList] hslash
  rw [happ, scanWords_keyword _ hcw k]
  simp [scanWords]

/-- Over plain words the lexer's depth is the depth after their text. -/
theorem scanWords_words_depth {S : State} (hS : S.inComment = false) {x : List Char}
    (hx : Plain x) : (scanWords S (words x)).2.parenDepth = depthAfter S.parenDepth x := by
  rw [scanWords_depth S hS _ fun w hw => not_mem_of_mem_words hw fun h => (hx _ h).2 rfl,
    depthAfter_words]

/-- The tokens of a plain start of a line, lexed alone, are as many as it gives inside the line. -/
theorem length_scanLine_plain (hc : st.inComment = false) (hs : st.inString = false)
    {x : List Char} (hx : Plain x) (z : List Char) :
    (scanLine st x).1.length = (scanWords (codeState st z) (words x)).1.length := by
  have hlen : ∀ ts : List Token, (demoteOpen ts).length = ts.length := fun ts => by
    simpa using congrArg List.length (demoteOpen_map (fun _ => ()) rfl ts)
  obtain ⟨hw0, hs0⟩ := codeWords_nil hc hs
  have h := rawScan_append hc hs hx (z := []) (.inr rfl)
  rw [List.append_nil, hw0, hs0] at h
  rw [scanLine_eq, hlen, h, codeState_eq hc hs z,
    scanWords_inString (multilineOpening? z).isSome st (words x)]
  simp [scanWords]

/-- A line whose first character is a name character, read as a keyword first, starts outside
parentheses. -/
theorem parenDepth_of_head_keyword (hc : st.inComment = false) (hs : st.inString = false)
    {c : Char} {z : List Char} {k : Keyword} (hn : isNameChar c = true)
    (hk : (rawScan st (c :: z)).1.head? = some (.keyword k)) : st.parenDepth = 0 := by
  have hp : Plain [c] := by
    intro d hd
    rw [List.mem_singleton.1 hd]
    constructor <;> (rintro rfl; exact absurd hn (by decide))
  have hb : isBlank c = false := by
    cases h : isBlank c
    · rfl
    · exact absurd (isNameChar_of_isBlank h) (by simp [hn])
  have hq : c ≠ '"' := (hp c (List.mem_singleton_self c)).1
  -- the code of the line starts with `c`, so its first word does
  have hcode : ∃ w ws, codeWords st (c :: z) = (c :: w) :: ws := by
    have hcodeOf := codeOf_append hc hs hp z
    obtain ⟨code, hcz⟩ := exists_codeOf_eq_some hc hs z
    simp only [List.singleton_append] at hcodeOf
    simp only [codeWords, codeText, hcodeOf, hcz, Option.map_some, Option.getD_some,
      stripLiterals, if_neg hq, words_cons_word hb]
    exact ⟨_, _, rfl⟩
  obtain ⟨w, ws, hw⟩ := hcode
  obtain ⟨t, ts, ht⟩ := scanWord_head (codeState st (c :: z)) (codeState_inComment hc hs _) hn w
  -- whether or not a line comment starts in the first word, its first token comes first
  have hhead : ((codeState st (c :: z)).record t).1 = .keyword k := by
    simp only [rawScan, hw, scanWords] at hk
    rcases hsw : scanWord (codeState st (c :: z)) (c :: w) with ⟨ts', st', flow⟩
    rw [hsw] at ht hk
    simp only at ht hk
    subst ht
    cases flow <;> simpa using hk
  have := State.depth_of_record_keyword hhead
  rwa [codeState_parenDepth hc hs] at this

end

end Lexer

end SwiftAccess
