import SwiftAccess.Proofs.WordScan
import SwiftAccess.Edit

/-!
# Parenthesis depth over plain text

Inside parentheses the lexer reads keywords as names, so where a keyword is written matters: its
depth. Over text without slashes the depth the lexer reaches is a fold over the characters
(`Lexer.scanWords_depth`): `(` opens, `)` closes when something is open, a brace resets the count,
and nothing else moves it. White space does not count, so the fold runs over the text itself,
not only its words.

The argument list an attribute anchor carries (`Edit.closeArguments`) is balanced, so reading it
from outside parentheses ends outside them again (`Edit.closeArguments_depth`): a modifier written
after it is read as a keyword.
-/

namespace SwiftAccess

namespace Text

/-- How one character moves the parenthesis depth. -/
def depthStep (d : Nat) (c : Char) : Nat :=
  if c = '(' then d + 1 else if c = ')' then d - 1 else if c = '{' ∨ c = '}' then 0 else d

/-- The depth after a text, from depth `d`. -/
def depthAfter (d : Nat) (cs : List Char) : Nat := cs.foldl depthStep d

@[simp] theorem depthAfter_nil (d : Nat) : depthAfter d [] = d := rfl

@[simp] theorem depthAfter_cons (d : Nat) (c : Char) (cs : List Char) :
    depthAfter d (c :: cs) = depthAfter (depthStep d c) cs := rfl

theorem depthAfter_append (d : Nat) (xs ys : List Char) :
    depthAfter d (xs ++ ys) = depthAfter (depthAfter d xs) ys := List.foldl_append

/-- Characters that are no parenthesis or brace leave the depth alone. -/
theorem depthAfter_of_neutral {cs : List Char}
    (h : ∀ c ∈ cs, c ≠ '(' ∧ c ≠ ')' ∧ c ≠ '{' ∧ c ≠ '}') (d : Nat) : depthAfter d cs = d := by
  induction cs generalizing d with
  | nil => rfl
  | cons c cs ih =>
    obtain ⟨h1, h2, h3, h4⟩ := h c (List.mem_cons_self ..)
    simp only [depthAfter_cons, depthStep, h1, h2, h3, h4, or_self, if_false]
    exact ih (fun c' hc' => h c' (List.mem_cons_of_mem _ hc')) d

theorem neutral_of_isNameChar {c : Char} (h : isNameChar c = true) :
    c ≠ '(' ∧ c ≠ ')' ∧ c ≠ '{' ∧ c ≠ '}' := by
  refine ⟨?_, ?_, ?_, ?_⟩ <;> (rintro rfl; exact absurd h (by decide))

theorem neutral_of_isBlank {c : Char} (h : isBlank c = true) :
    c ≠ '(' ∧ c ≠ ')' ∧ c ≠ '{' ∧ c ≠ '}' := by
  refine ⟨?_, ?_, ?_, ?_⟩ <;> (rintro rfl; exact absurd h (by decide))

/-- The words of a text, joined, are the text without its white space. -/
theorem words_flatten : ∀ cs : List Char, (words cs).flatten = cs.filter (!isBlank ·)
  | [] => by simp
  | c :: cs => by
    cases hc : isBlank c with
    | true =>
      rw [words_cons_blank hc, words_flatten cs]
      simp [hc]
    | false =>
      rw [words_cons_word hc, List.flatten_cons, words_flatten (cs.dropWhile (!isBlank ·))]
      have hsplit := List.takeWhile_append_dropWhile (p := (!isBlank ·)) (l := cs)
      have htake : (cs.takeWhile (!isBlank ·)).filter (!isBlank ·) = cs.takeWhile (!isBlank ·) :=
        List.filter_eq_self.2 fun d hd => by simpa using List.mem_takeWhile_imp hd
      conv => rhs; rw [← hsplit]
      rw [List.filter_cons, if_pos (by simp [hc]), List.filter_append, htake]
      rfl
termination_by cs => cs.length
decreasing_by
  all_goals
    have := (List.dropWhile_sublist (p := (!isBlank ·)) (l := cs)).length_le
    simp only [List.length_cons]
    omega

/-- The depth after a text's words is the depth after the text. -/
theorem depthAfter_words (d : Nat) (cs : List Char) :
    depthAfter d (words cs).flatten = depthAfter d cs := by
  rw [words_flatten]
  induction cs generalizing d with
  | nil => rfl
  | cons c cs ih =>
    cases hc : isBlank c with
    | true =>
      obtain ⟨h1, h2, h3, h4⟩ := neutral_of_isBlank hc
      simp [hc, ih, depthStep, h1, h2, h3, h4]
    | false => simp [hc, ih]

end Text

namespace Lexer

open Text

/-- A keyword's spelling is balanced: it leaves the depth where it was. -/
theorem Keyword.depthAfter_spelling (k : Keyword) (d : Nat) : depthAfter d k.spelling.toList = d := by
  cases k <;> simp [Keyword.spelling, depthStep]

/-- Recording a token resets the depth at a brace and keeps it otherwise. -/
theorem State.record_parenDepth (st : State) (t : Token) :
    (st.record t).2.parenDepth =
      if t = .punct .openBrace ∨ t = .punct .closeBrace then 0 else st.parenDepth := by
  cases t with
  | keyword k =>
    simp only [State.record]
    split <;> simp
  | _ => simp only [State.record]; split <;> rfl

/-- The characters a token is read from move the depth as recording the token does. -/
theorem readToken?_depth {cs : List Char} {t : Token} {after : List Char}
    (h : readToken? cs = some (t, after)) (d : Nat) :
    ∃ consumed, cs = consumed ++ after ∧
      depthAfter d consumed = if t = .punct .openBrace ∨ t = .punct .closeBrace then 0 else d := by
  rcases readToken?_cases h with ⟨c, p, rfl, hp, rfl⟩ | ⟨rest, rfl, rfl, rfl⟩ |
    ⟨c, rest, rfl, hn, rfl, rfl⟩ | ⟨rfl, -, rfl⟩
  · -- a brace resets the depth, other punctuation leaves it
    refine ⟨[c], rfl, ?_⟩
    obtain rfl := Punct.ofChar?_eq_some.1 hp
    cases p <;> simp [Punct.char, depthStep]
  · -- an attribute's characters leave the depth alone
    refine ⟨'@' :: rest.takeWhile isNameChar, by simp, ?_⟩
    rw [depthAfter_of_neutral fun d hd => ?_]
    · simp
    · rcases List.mem_cons.1 hd with rfl | hd
      · decide
      · exact neutral_of_isNameChar (List.mem_takeWhile_imp hd)
  · -- and so do a name's
    refine ⟨c :: rest.takeWhile isNameChar, by simp, ?_⟩
    have hname : ∀ name, nameToken name ≠ .punct .openBrace ∧ nameToken name ≠ .punct .closeBrace := by
      intro name
      unfold nameToken
      split <;> simp
    rw [depthAfter_of_neutral fun d hd => ?_, if_neg (by simp [hname])]
    rcases List.mem_cons.1 hd with rfl | hd
    · exact neutral_of_isNameChar hn
    · exact neutral_of_isNameChar (List.mem_takeWhile_imp hd)
  · exact ⟨['.', 'i', 'n', 'i', 't'], rfl, by simp [depthStep]⟩

/-- Reading text without a slash moves the depth as the fold over its characters does. -/
theorem scanChars_depth (st : State) (cs : List Char) (hc : st.inComment = false) (hs : '/' ∉ cs) :
    (scanChars st cs).2.1.parenDepth = depthAfter st.parenDepth cs := by
  induction st, cs using scanChars.induct with
  | case1 st => simp [scanChars]
  | case2 st rest => simp at hs
  | case3 st c rest _ hcomm => simp_all
  | case4 st c rest _ hcomm _ => simp_all
  | case5 st c rest _ hcomm hslash => simp_all
  | case6 st c rest hne hcomm hslash t after hread t₁ st₁ hrec ts st₂ flow hscan ih =>
    obtain ⟨consumed, hsplit, hdepth⟩ := readToken?_depth hread st.parenDepth
    have hrd := State.record_parenDepth st t
    have hsuf := readToken?_suffix hread
    have hc₁ : st₁.inComment = false := by
      have := State.record_inComment st t
      rw [hrec] at this
      simpa [hc] using this
    have := ih hc₁ (fun h => hs (hsuf.subset h))
    rw [hscan] at this
    rw [hrec, ← hdepth] at hrd
    rw [scanChars_token hc hread, hrec, hscan]
    rw [this, hsplit, depthAfter_append, ← hrd]
  | case7 st c rest hne hcomm hslash hread ih =>
    have := ih (by simpa using hc) (fun h => hs (List.mem_cons_of_mem _ h))
    rw [scanChars_skip hc (startsNoMarker_of_guards hne hslash) hread, this, depthAfter_cons]
    congr 1
    -- a skipped character is no brace, which would be a token; it moves the depth as a step does
    have hbrace : c ≠ '{' ∧ c ≠ '}' := by
      constructor <;> (rintro rfl; simp [readToken?, Punct.ofChar?] at hread)
    by_cases hopen : c = '('
    · simp [State.skip, depthStep, hopen]
    · by_cases hclose : c = ')'
      · simp [State.skip, depthStep, hclose]
      · simp [State.skip, depthStep, hopen, hclose, hbrace.1, hbrace.2]

theorem scanWord_depth (st : State) (w : List Char) (hc : st.inComment = false) (hs : '/' ∉ w) :
    (scanWord st w).2.1.parenDepth = depthAfter st.parenDepth w := by
  unfold scanWord
  simp only [hc, Bool.false_eq_true, if_false]
  split
  · next t ht =>
    rcases wholeToken?_eq_some ht with ⟨c, p, rfl, hp, rfl⟩ | ⟨k, hk, rfl⟩
    · obtain rfl := Punct.ofChar?_eq_some.1 hp
      cases p <;> simp [Punct.char, State.record, depthStep]
    · -- a keyword's spelling leaves the depth alone
      have := Keyword.depthAfter_spelling k st.parenDepth
      rw [Keyword.ofWord?_eq_some hk, String.toList_ofList] at this
      simp [this]
  · exact scanChars_depth st w hc hs

/-- Over words without a slash, the lexer's depth is the fold over their characters. -/
theorem scanWords_depth (st : State) (hc : st.inComment = false) :
    ∀ ws : List (List Char), (∀ w ∈ ws, '/' ∉ w) →
      (scanWords st ws).2.parenDepth = depthAfter st.parenDepth ws.flatten
  | [], _ => rfl
  | w :: ws, hs => by
    obtain ⟨hflow, hc'⟩ := scanWord_plain st w hc (hs w (List.mem_cons_self ..))
    have hd := scanWord_depth st w hc (hs w (List.mem_cons_self ..))
    rcases h : scanWord st w with ⟨ts, st', flow⟩
    rw [h] at hflow hc' hd
    simp only at hflow hc' hd
    subst hflow
    simp only [scanWords, h, List.flatten_cons, depthAfter_append, ← hd]
    exact scanWords_depth st' hc' ws fun v hv => hs v (List.mem_cons_of_mem _ hv)

end Lexer

namespace Edit

open Text

/-- An argument list ends where the depth it opened returns to nothing, so read from any depth
no deeper than its own count it ends outside parentheses. -/
theorem closeArguments_depth :
    ∀ (e : Nat) (text mid tail : List Char), closeArguments e text = some (mid, tail) →
      ∀ d ≤ e, depthAfter d mid = 0
  | _, [], _, _, h, _, _ => by simp [closeArguments] at h
  | e, c :: rest, mid, tail, h, d, hd => by
    simp only [closeArguments] at h
    split at h
    · next hc =>
      subst hc
      obtain ⟨⟨m, t⟩, hr, heq⟩ := Option.map_eq_some_iff.1 h
      cases heq
      simp only [depthAfter_cons, depthStep, if_true]
      exact closeArguments_depth (e + 1) rest m t hr (d + 1) (by omega)
    · next hc =>
      split at h
      · next hc' =>
        subst hc'
        split at h
        · next he =>
          simp only [Option.some.injEq, Prod.mk.injEq] at h
          obtain ⟨rfl, rfl⟩ := h
          simp [depthStep]
          omega
        · obtain ⟨⟨m, t⟩, hr, heq⟩ := Option.map_eq_some_iff.1 h
          cases heq
          simp only [depthAfter_cons, depthStep, hc, if_false, if_true]
          exact closeArguments_depth (e - 1) rest m t hr (d - 1) (by omega)
      · next hc' =>
        obtain ⟨⟨m, t⟩, hr, heq⟩ := Option.map_eq_some_iff.1 h
        cases heq
        simp only [depthAfter_cons, depthStep, hc, hc', if_false]
        split
        · exact closeArguments_depth e rest m t hr 0 (by omega)
        · exact closeArguments_depth e rest m t hr d hd

end Edit

end SwiftAccess
