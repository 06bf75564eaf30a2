import SwiftAccess.Text.Printable

/-!
# Access levels

Swift orders declarations by visibility: `private` inside its scope, `fileprivate` inside its file,
`internal` (the default) inside its module, `public` to clients, and `open` to clients that may
also subclass or override. A rewrite also needs a level that writes no modifier at all; it is
`Access.implicit`, which ranks with `internal` because an unmarked declaration is internal.

The comparison of levels is by `Access.rank`. Each level has up to three spellings: its keyword,
the text that replaces a modifier (`Access.replacement`, empty for the default), and the setter
keyword such as `private(set)` (`Access.setterKeyword?`). An `AccessChange` is what the user asks
for: one step up or down, the API moves between `internal` and `public`, or a fixed level.

Users name levels in configuration and on the command line. `Access.parse` ignores surrounding
white space and ASCII case; the empty text, `remove` and `none` all name the implicit level. Any
other text is refused with `UnknownAccess`, which keeps the text as it was given.
-/

namespace SwiftAccess

/-- A Swift access level, together with `implicit` for a declaration that carries no modifier. -/
inductive Access where
  | «private»
  | fileprivate
  | internal
  | implicit
  | «public»
  | «open»
  deriving DecidableEq, Repr, Inhabited

namespace Access

/-- Every level, from the narrowest. -/
def all : List Access := [.«private», .fileprivate, .internal, .implicit, .«public», .«open»]

/-- The visibility order; `internal` and `implicit` share a rank. -/
def rank : Access → Int
  | .«private» => -2
  | .fileprivate => -1
  | .internal => 0
  | .implicit => 0
  | .«public» => 1
  | .«open» => 2

/-- The modifier keyword of a level; the implicit level has none. -/
def keyword : Access → String
  | .«private» => "private"
  | .fileprivate => "fileprivate"
  | .internal => "internal"
  | .implicit => ""
  | .«public» => "public"
  | .«open» => "open"

/-- The text written in place of a modifier: the default level is written as nothing. -/
def replacement : Access → String
  | .internal => ""
  | .implicit => ""
  | a => a.keyword

/-- The setter modifier of a level. Setters above `internal` are not written, since a setter is
never more visible than its property's module. -/
def setterKeyword? : Access → Option String
  | .«private» => some "private(set)"
  | .fileprivate => some "fileprivate(set)"
  | .internal => some "internal(set)"
  | .implicit => some "internal(set)"
  | .«public» => none
  | .«open» => none

/-- How a level is named in messages; the implicit level reads `(none)`. -/
def label : Access → String
  | .implicit => "(none)"
  | a => a.keyword

/-- `a.isAtLeast b` when `a` is as visible as `b` or more. -/
def isAtLeast (a b : Access) : Bool :=
  decide (b.rank ≤ a.rank)

/-- The less visible of two levels; on equal rank the first one. -/
def minByRank (a b : Access) : Access :=
  if b.rank < a.rank then b else a

/-- A level lowered to at most `internal`, which is what an enclosing scope passes on to members
that do not say otherwise. -/
def clampToInternal (a : Access) : Access :=
  a.minByRank .internal

@[simp] theorem rank_implicit : rank .implicit = rank .internal := rfl

theorem minByRank_rank_le_left (a b : Access) : (a.minByRank b).rank ≤ a.rank := by
  unfold minByRank; split <;> omega

theorem minByRank_rank_le_right (a b : Access) : (a.minByRank b).rank ≤ b.rank := by
  unfold minByRank; split <;> omega

theorem clampToInternal_rank_le (a : Access) : a.clampToInternal.rank ≤ 0 :=
  minByRank_rank_le_right a .internal

end Access

/-- A change of access that the user asks for on the selected lines. -/
inductive AccessChange where
  /-- Every selected declaration gets exactly this level. -/
  | setLevel (level : Access)
  /-- One step towards `open`. -/
  | increase
  /-- One step towards `private`. -/
  | decrease
  /-- An internal declaration becomes `public`. -/
  | makeAPI
  /-- A public declaration becomes `internal`. -/
  | removeAPI
  deriving DecidableEq, Repr, Inhabited

namespace AccessChange

/-- How a change is named in messages. -/
def label : AccessChange → String
  | .setLevel a => "set level " ++ a.label
  | .increase => "increase access"
  | .decrease => "decrease access"
  | .makeAPI => "make API"
  | .removeAPI => "remove API"

end AccessChange

/-! ## Reading a level -/

/-- A text that names no access level. -/
structure UnknownAccess where
  text : String
  deriving DecidableEq, Repr

/-- The message for a text that names no access level. -/
def UnknownAccess.message (e : UnknownAccess) : String :=
  "unknown access level: " ++ Text.quote e.text

/-- The level a text names. -/
def Access.parse (s : String) : Except UnknownAccess Access :=
  match String.ofList ((Text.trim s.toList).map Char.toLower) with
  | "private" => .ok .«private»
  | "fileprivate" => .ok .fileprivate
  | "internal" => .ok .internal
  | "" | "remove" | "none" => .ok .implicit
  | "public" => .ok .«public»
  | "open" => .ok .«open»
  | _ => .error ⟨s⟩

end SwiftAccess
