import SwiftAccess.Scope

/-!
# Classifying a line

For each line the rewriter needs three facts: where an access modifier would be written
(`LineChange`), whether the line may carry one at all (eligibility), and the level its
declaration has now (`Classification.current`).

`LineChange.ofTokens` reads the place off the tokens. A setter modifier such as `private(set)`
takes precedence: the plain modifier beside it is substituted, or a new modifier follows the
setter. Otherwise a plain modifier is substituted; a leading `static`, `unowned`, `required` or
`convenience` is followed by the new modifier; a leading attribute is followed by it when a
keyword comes later on the line; and any other leading keyword that may carry a modifier is
preceded by it.

`classify` decides eligibility from the scope before the line and then folds the line into the
scope. A line is not eligible inside a local scope, a protocol, a property body or a conforming
extension, when it starts with punctuation, an identifier or a statement keyword, or when it
opens a conforming extension itself.
-/

namespace SwiftAccess

/-- Where an access modifier goes on a line. The anchor is the text of the token it is placed at. -/
inductive LineChange where
  /-- The line takes no modifier. -/
  | none
  /-- A new modifier is written before the anchor, the line's first keyword. -/
  | insertBefore (anchor : String)
  /-- A new modifier is written after the anchor. -/
  | insertAfter (anchor : String)
  /-- The anchor is the line's modifier, and is replaced. -/
  | substitute (anchor : String)
  /-- The line has a setter modifier at level `setter` and a plain modifier, the anchor. -/
  | setterSubstitute (setter : Access) (anchor : String)
  /-- The line has a setter modifier at level `setter`, the anchor, and no plain one. -/
  | setterInsertAfter (setter : Access) (anchor : String)
  deriving DecidableEq, Repr, Inhabited

namespace LineChange

/-- The text at which the change is placed. -/
def anchor? : LineChange → Option String
  | .none => Option.none
  | .insertBefore a | .insertAfter a | .substitute a => some a
  | .setterSubstitute _ a | .setterInsertAfter _ a => some a

/-- The level of the line's setter modifier, if it has one. -/
def setter? : LineChange → Option Access
  | .setterSubstitute s _ | .setterInsertAfter s _ => some s
  | _ => Option.none

/-- Where a modifier goes on a line with these tokens. -/
def ofTokens (ts : List Token) : LineChange :=
  match ts with
  | [] => .none
  | first :: rest =>
    let keywords := ts.filterMap Token.keyword?
    let plain := keywords.find? Keyword.isAccess
    match keywords.find? Keyword.isSetter with
    | some setter =>
      let level := (setter.setterAccess?).getD .internal
      match plain with
      | some k => .setterSubstitute level k.spelling
      | Option.none => .setterInsertAfter level setter.spelling
    | Option.none =>
      match plain with
      | some k => .substitute k.spelling
      | Option.none =>
        match first with
        | .keyword k =>
          if k.accessFollows then .insertAfter k.spelling
          else if k.refusesAccess then .none
          else .insertBefore k.spelling
        | .attribute a => if rest.any (·.keyword?.isSome) then .insertAfter a else .none
        | _ => .none

end LineChange

/-- Whether a line starting with this token may carry a modifier. -/
def Token.startsDeclaration : Token → Bool
  | .punct _ | .identifier _ => false
  | .keyword k => !k.refusesAccess
  | .attribute _ => true

/-- The level a line states with its first plain access modifier. -/
def statedAccess? (ts : List Token) : Option Access :=
  (ts.filterMap Token.keyword?).findSome? Keyword.access?

/-- What the rewriter knows about one line. -/
structure Classification where
  change : LineChange
  /-- Whether the line may carry an access modifier. -/
  eligible : Bool
  /-- The line's level now: the one it states, or the one its scope gives a member. -/
  current : Access
  deriving DecidableEq, Repr, Inhabited

/-- The classification of a line in the scope before it, and the scope after it. -/
def classify (s : Scope) (ts : List Token) : Classification × Scope :=
  let eligible := s.allowsModifiers && (ts.head?.map Token.startsDeclaration).getD true &&
    !s.inConformingExtension && !isConformingExtension ts
  let current := (statedAccess? ts).getD s.memberLevel
  ({ change := LineChange.ofTokens ts, eligible, current }, s.addLine ts)

end SwiftAccess
