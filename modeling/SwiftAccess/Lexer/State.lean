import SwiftAccess.Token

/-!
# Lexer state

A line is lexed on its own, but three things carry over to the next line: an unclosed block
comment, an unclosed multiline string, and the depth of unclosed parentheses (a signature may span
lines). `Lexer.State` holds them. `State.record` is how every token enters a line's list: a keyword
inside parentheses is a parameter label or a name, not a keyword, and a brace starts or ends a
body, where parentheses no longer count.

The depth is counted here without bound. The program counts it in a machine word, which holds
depths up to `Lexer.depthLimit`: opening a parenthesis at that depth stops the program instead.
`State.overflow` records that this happened, so the bounded run can be told from the unbounded
one without changing how anything else is lexed.
-/

namespace SwiftAccess.Lexer

/-- The largest parenthesis depth the program's machine-word counter holds, `2 ^ 64 - 1`. -/
def depthLimit : Nat := 18446744073709551615

/-- What one line leaves open for the next. -/
structure State where
  /-- Inside a `/* … */` comment. -/
  inComment : Bool := false
  /-- Inside a `""" … """` string. -/
  inString : Bool := false
  /-- Parentheses opened and not closed since the last brace. -/
  parenDepth : Nat := 0
  /-- A parenthesis was opened at `depthLimit`, past what the program can count. -/
  overflow : Bool := false
  deriving DecidableEq, Repr, Inhabited

namespace State

/-- The state at the start of a file. -/
def initial : State := {}

/-- A token as it is recorded, and the state after it: keywords inside parentheses become
identifiers, and a brace resets the parenthesis depth. -/
def record (st : State) (t : Token) : Token × State :=
  let t : Token := match t with
    | .keyword k => if 0 < st.parenDepth then .identifier k.spelling else .keyword k
    | t => t
  (t, if t = .punct .openBrace ∨ t = .punct .closeBrace then { st with parenDepth := 0 } else st)

/-- The state after a character that is no token: parentheses are counted, and a closing one
with none open changes nothing. An opening one at `depthLimit` overflows the program's counter. -/
def skip (st : State) (c : Char) : State :=
  if c = '(' then
    { st with parenDepth := st.parenDepth + 1, overflow := st.overflow || depthLimit ≤ st.parenDepth }
  else if c = ')' then { st with parenDepth := st.parenDepth - 1 }
  else st

@[simp] theorem skip_inComment (st : State) (c : Char) : (st.skip c).inComment = st.inComment := by
  unfold skip; split
  · rfl
  · split <;> rfl

@[simp] theorem record_inComment (st : State) (t : Token) :
    (st.record t).2.inComment = st.inComment := by
  simp only [record]; split <;> split <;> rfl

end State

end SwiftAccess.Lexer
