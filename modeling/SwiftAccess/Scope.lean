import SwiftAccess.Token

/-!
# The scope stack

A `Scope` is the stack of declarations and blocks that enclose a point of a Swift file, folded
forward one line at a time (`Scope.addLine`). Each `Frame` records the keyword that declared it
(or none, for a bare block), the access modifier written on its line, whether its `{` has been
seen, and whether it is an extension that declares a conformance.

The stack answers the questions the classifier asks of the next line: the level a new member gets
when it states none (`Scope.memberLevel`), whether a modifier may be written at all
(`Scope.allowsModifiers`: not inside functions, loops, statement blocks, protocols or property
bodies), and whether the line sits inside a conforming extension, whose members follow the
protocol.

Braces match like brackets: `{` opens the innermost frame that is still waiting for its body, or a
new bare block; `}` removes frames down to and including the innermost open one. A property
(`var`, `let`) that never opened a body is dropped as soon as the next declaration starts.
-/

namespace SwiftAccess

/-- One declaration or block on the scope stack. -/
structure Frame where
  /-- The access modifier written on the declaration's line, if any. -/
  access : Option Access
  /-- The declaring keyword; `none` for a bare block. -/
  keyword : Option Keyword
  /-- Whether the frame's `{` has been seen. -/
  braced : Bool
  /-- Whether the frame is an extension that declares a conformance. -/
  conformance : Bool
  deriving DecidableEq, Repr, Inhabited

namespace Frame

/-- Whether the frame is a stored or computed property. -/
def isProperty (f : Frame) : Bool :=
  f.keyword == some .var || f.keyword == some .«let»

/-- A property without a body: it ends with its line and holds no members. -/
def isBareProperty (f : Frame) : Bool := f.isProperty && !f.braced

/-- A property with a body, such as a computed property or observers. -/
def isPropertyBody (f : Frame) : Bool := f.isProperty && f.braced

/-- How a frame is written in a scope's description: its access, its keyword or `block`, a colon
for a conformance, and ` {` once its body is open. -/
def label (f : Frame) : String :=
  (match f.access with | some a => a.label ++ " " | none => "") ++
  (match f.keyword with | some k => k.spelling | none => "block") ++
  (if f.conformance then ":" else "") ++
  (if f.braced then " \x7b" else "")

end Frame

/-- Whether the tokens after `extension` declare a conformance: a colon comes before the body's
brace and before a `where` clause. -/
def declaresConformance : List Token → Bool
  | [] => false
  | .punct .colon :: _ => true
  | .punct .openBrace :: _ => false
  | .identifier "where" :: _ => false
  | _ :: rest => declaresConformance rest

/-- Whether a line's first `extension` declares a conformance. -/
def isConformingExtension (ts : List Token) : Bool :=
  match ts.dropWhile (fun t => !t.isKeyword .extension) with
  | _ :: rest => declaresConformance rest
  | [] => false

/-- The declarations and blocks around a point of a file. -/
structure Scope where
  /-- The frames, innermost first. -/
  frames : List Frame := []
  deriving DecidableEq, Repr, Inhabited

namespace Scope

/-- The frames from the outermost in. -/
def declarations (s : Scope) : List Frame := s.frames.reverse

/-- Whether some frame was declared by this keyword. -/
def declares (s : Scope) (k : Keyword) : Bool :=
  s.frames.any (·.keyword == some k)

/-- A new declaration; a property without a body on top ends here. -/
def push (s : Scope) (f : Frame) : Scope :=
  match s.frames with
  | g :: rest => if g.isBareProperty then ⟨f :: rest⟩ else ⟨f :: g :: rest⟩
  | [] => ⟨[f]⟩

/-- An opening brace: the body of the innermost declaration that waits for one, or else a bare
block that carries the line's access. -/
def openBrace (s : Scope) (access : Option Access) : Scope :=
  let block : Frame := { access, keyword := none, braced := true, conformance := false }
  match s.frames with
  | g :: rest => if g.braced then ⟨block :: g :: rest⟩ else ⟨{ g with braced := true } :: rest⟩
  | [] => ⟨[block]⟩

/-- The frames left after a closing brace, innermost first: everything down to and including the
innermost open frame goes. -/
def closeFrames : List Frame → List Frame
  | [] => []
  | f :: rest => if f.braced then rest else closeFrames rest

/-- A closing brace. -/
def closeBrace (s : Scope) : Scope := ⟨closeFrames s.frames⟩

/-- The scope after the rest of a line, given the access written on the line so far and the token
before. An access modifier holds for every declaration after it on the line. Inside a protocol no
declaration is recorded; a structural keyword followed by a colon is an argument label, and
`while` right after `}` ends a `repeat` loop. -/
def addTokens (s : Scope) (lineAccess : Option Access) (prev : Option Token) :
    List Token → Scope
  | [] => s
  | t :: rest =>
    match t with
    | .keyword k =>
      match k.access? with
      | some a => s.addTokens (some a) (some t) rest
      | none =>
        if k.structural && !s.declares .protocol then
          if rest.head? == some (.punct .colon) then s.addTokens lineAccess (some t) rest
          else if k == .«while» && prev == some (.punct .closeBrace) then
            s.addTokens lineAccess (some t) rest
          else
            let f : Frame := { access := lineAccess, keyword := some k, braced := false,
                               conformance := k == .extension && declaresConformance rest }
            (s.push f).addTokens lineAccess (some t) rest
        else s.addTokens lineAccess (some t) rest
    | .punct .openBrace => (s.openBrace lineAccess).addTokens lineAccess (some t) rest
    | .punct .closeBrace => s.closeBrace.addTokens lineAccess (some t) rest
    | _ => s.addTokens lineAccess (some t) rest

/-- The scope after a line's tokens. -/
def addLine (s : Scope) (ts : List Token) : Scope := s.addTokens none none ts

/-- The access of the nearest frame that states one, lowered to at most `internal`; `internal`
when none does. -/
def inheritedLevel (fs : List Frame) : Access :=
  match fs.findSome? (·.access) with
  | some a => a.clampToInternal
  | none => .internal

/-- The level of the innermost frame: its own modifier, or what it inherits. -/
def currentLevel (s : Scope) : Access :=
  match s.frames with
  | f :: _ => f.access.getD (inheritedLevel s.frames)
  | [] => .internal

/-- The level a new member gets when it states none. Properties without a body on top do not
enclose it. -/
def memberLevel (s : Scope) : Access :=
  inheritedLevel (s.frames.dropWhile (·.isBareProperty))

/-- Whether the point lies inside an extension that declares a conformance. -/
def inConformingExtension (s : Scope) : Bool := s.frames.any (·.conformance)

/-- Whether a declaration here may carry an access modifier: not in a local scope (a function,
initialiser, subscript, loop or statement block), not in a protocol, and not in a property body. -/
def allowsModifiers (s : Scope) : Bool :=
  !(s.frames.any fun f => (f.keyword.map Keyword.localScope).getD false) &&
  !(s.frames.any (·.isPropertyBody))

/-- The number of frames whose body is open. -/
def openCount (s : Scope) : Nat := s.frames.countP (·.braced)

/-- How a scope is written: its frames from the outermost in, in brackets. -/
def label (s : Scope) : String :=
  "[" ++ ", ".intercalate (s.declarations.map Frame.label) ++ "]"

end Scope

end SwiftAccess
