import SwiftAccess.Lexer.State
import SwiftAccess.Lexer.Literal
import SwiftAccess.Text.WordChar

/-!
# Reading the tokens of one word

A line is cut into words at white space; a word may still hold several tokens glued together, as
in `foo{` or `override/*`. `Lexer.readToken?` reads the token at the start of a text: one of
`{ } : =`, an attribute (`@` and name characters), a run of name characters (a keyword when it
spells one, else an identifier), or the reference `.init` when a word boundary follows it.
Characters that start no token are skipped, and parentheses among them are counted.

`Lexer.scanChars` reads a word this way while tracking block comments: `/*` opens one anywhere,
inside a comment everything up to the next `*/` is dropped, and `//` ends the line's code.
`Lexer.scanWord` first takes a word that is a whole keyword or punctuation as one token, which is
how the parenthesised keywords such as `private(set)` are read.
-/

namespace SwiftAccess.Lexer

open Text

/-- A run of name characters is a keyword when it spells one, and an identifier otherwise. -/
def nameToken (name : List Char) : Token :=
  match Keyword.ofWord? (String.ofList name) with
  | some k => .keyword k
  | none => .identifier (String.ofList name)

/-- Whether a word boundary follows a name: the text ends or goes on with a character that is not
a Unicode word character. -/
def endsWord : List Char → Bool
  | [] => true
  | c :: _ => !isWordChar c

/-- The token at the start of a text, with the text after it. -/
def readToken? : List Char → Option (Token × List Char)
  | [] => none
  | c :: rest =>
    match Punct.ofChar? c with
    | some p => some (.punct p, rest)
    | none =>
      if c = '@' then
        some (.attribute (String.ofList (c :: rest.takeWhile isNameChar)),
          rest.dropWhile isNameChar)
      else if isNameChar c then
        some (nameToken (c :: rest.takeWhile isNameChar), rest.dropWhile isNameChar)
      else if c = '.' then
        match rest with
        | 'i' :: 'n' :: 'i' :: 't' :: after =>
          if endsWord after then some (.identifier ".init", after) else none
        | _ => none
      else none

/-- What `readToken?` reads at the start of a text: one punctuation character, an attribute or a
name running over the name characters after its first, or `.init` followed by no word
character. -/
theorem readToken?_cases {cs after : List Char} {t : Token} (h : readToken? cs = some (t, after)) :
    (∃ c p, cs = c :: after ∧ Punct.ofChar? c = some p ∧ t = .punct p) ∨
    (∃ rest, cs = '@' :: rest ∧ t = .attribute (String.ofList ('@' :: rest.takeWhile isNameChar)) ∧
      after = rest.dropWhile isNameChar) ∨
    (∃ c rest, cs = c :: rest ∧ isNameChar c = true ∧
      t = nameToken (c :: rest.takeWhile isNameChar) ∧ after = rest.dropWhile isNameChar) ∨
    (cs = '.' :: 'i' :: 'n' :: 'i' :: 't' :: after ∧ endsWord after = true ∧
      t = .identifier ".init") := by
  match cs, h with
  | c :: rest, h =>
    simp only [readToken?] at h
    split at h
    · next p hp =>
      cases h
      exact .inl ⟨c, p, rfl, hp, rfl⟩
    · split at h
      · next hat =>
        cases h
        subst hat
        exact .inr (.inl ⟨rest, rfl, rfl, rfl⟩)
      · split at h
        · next hn =>
          cases h
          exact .inr (.inr (.inl ⟨c, rest, rfl, hn, rfl, rfl⟩))
        · split at h
          · next hdot =>
            subst hdot
            split at h
            · split at h
              · next hend =>
                cases h
                exact .inr (.inr (.inr ⟨rfl, hend, rfl⟩))
              · cases h
            · cases h
          · cases h

/-- What `readToken?` leaves of a text is a suffix of it. -/
theorem readToken?_suffix {cs : List Char} {t : Token} {r : List Char}
    (h : readToken? cs = some (t, r)) : r <:+ cs := by
  rcases readToken?_cases h with ⟨c, p, rfl, -, -⟩ | ⟨rest, rfl, -, rfl⟩ |
    ⟨c, rest, rfl, -, -, rfl⟩ | ⟨rfl, -, -⟩
  · exact List.suffix_cons _ _
  · exact (List.dropWhile_suffix _).trans (List.suffix_cons _ _)
  · exact (List.dropWhile_suffix _).trans (List.suffix_cons _ _)
  · exact ⟨['.', 'i', 'n', 'i', 't'], rfl⟩

/-- A token takes at least one character. -/
theorem readToken?_length {cs t r} (h : readToken? cs = some (t, r)) : r.length < cs.length := by
  rcases readToken?_cases h with ⟨c, p, rfl, -, -⟩ | ⟨rest, rfl, -, rfl⟩ |
    ⟨c, rest, rfl, -, -, rfl⟩ | ⟨rfl, -, -⟩
  · simp
  · have := (List.dropWhile_sublist isNameChar (l := rest)).length_le
    simp only [List.length_cons]
    omega
  · have := (List.dropWhile_sublist isNameChar (l := rest)).length_le
    simp only [List.length_cons]
    omega
  · simp only [List.length_cons]
    omega

/-- How the scan of a word ends: the line goes on with its next word, or a `//` comment takes the
rest of the line. -/
inductive Flow where
  | next
  | lineComment
  deriving DecidableEq, Repr

/-- The tokens of a text inside one word, the state after them, and whether a line comment
began. -/
def scanChars (st : State) : List Char → List Token × State × Flow
  | [] => ([], st, .next)
  | '/' :: '*' :: rest => scanChars { st with inComment := true } rest
  | c :: rest =>
    if st.inComment then
      match h : breakOn? blockCloseMark (c :: rest) with
      | some (_, after) => scanChars { st with inComment := false } after
      | none => ([], st, .next)
    else if c = '/' ∧ rest.head? = some '/' then ([], st, .lineComment)
    else
      match h : readToken? (c :: rest) with
      | some (t, after) =>
        let (t, st) := st.record t
        let (ts, st, flow) := scanChars st after
        (t :: ts, st, flow)
      | none => scanChars (st.skip c) rest
termination_by cs => cs.length
decreasing_by
  · simp only [List.length_cons]; omega
  · exact breakOn?_length (by simp [blockCloseMark]) h
  · exact readToken?_length h
  · simp

/-- A word that is a single punctuation character or a whole keyword. -/
def wholeToken? (word : List Char) : Option Token :=
  match word with
  | [c] =>
    match Punct.ofChar? c with
    | some p => some (.punct p)
    | none => (Keyword.ofWord? (String.ofList word)).map .keyword
  | _ => (Keyword.ofWord? (String.ofList word)).map .keyword

/-- The tokens of one word, the state after it, and whether a line comment began. Outside a
comment a whole keyword or punctuation word is one token. -/
def scanWord (st : State) (word : List Char) : List Token × State × Flow :=
  if st.inComment then scanChars st word
  else
    match wholeToken? word with
    | some t =>
      let (t, st) := st.record t
      ([t], st, .next)
    | none => scanChars st word

end SwiftAccess.Lexer
