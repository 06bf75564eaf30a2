import SwiftAccess.Access

/-!
# Tokens

The lexer needs only the few Swift words and characters that decide where a declaration starts and
which access modifier it carries. A line becomes a list of `Token`s: a `Keyword` from a closed
list of 41, an attribute such as `@objc`, one of the four characters `{ } : =` (`Punct`), or an
identifier for every other word.

Keywords fall into classes that drive the later stages: structural keywords open a scope
(`Keyword.structural`), some of them open a local scope whose members take no modifiers
(`Keyword.localScope`), five are access modifiers (`Keyword.access?`) and three are setter
modifiers (`Keyword.setterAccess?`).
-/

namespace SwiftAccess

/-- The characters of a Swift name as this library reads them: ASCII letters, digits and `_`. -/
def isNameChar (c : Char) : Bool := c.isAlphanum || c == '_'

/-- The Swift keywords the lexer tells apart. The parenthesised forms `unowned(safe)`,
`unowned(unsafe)` and the three setter modifiers are single keywords. -/
inductive Keyword where
  | protocol
  | extension
  | struct
  | «class»
  | «let»
  | var
  | «public»
  | «private»
  | «open»
  | fileprivate
  | internal
  | override
  | func
  | final
  | enum
  | «case»
  | init
  | static
  | typealias
  | required
  | mutating
  | nonmutating
  | «for»
  | «while»
  | «repeat»
  | unowned
  | unownedSafe
  | unownedUnchecked
  | convenience
  | «do»
  | «catch»
  | defer
  | subscript
  | prefixOperator
  | postfixOperator
  | infixOperator
  | lazy
  | weak
  | privateSet
  | fileprivateSet
  | internalSet
  deriving DecidableEq, Repr, Inhabited

namespace Keyword

/-- Every keyword, in the order in which a word is looked up. -/
def all : List Keyword :=
  [.protocol, .extension, .struct, .«class», .«let», .var, .«public», .«private», .«open»,
   .fileprivate, .internal, .override, .func, .final, .enum, .«case», .init, .static, .typealias,
   .required, .mutating, .nonmutating, .«for», .«while», .«repeat», .unowned, .unownedSafe,
   .unownedUnchecked, .convenience, .«do», .«catch», .defer, .subscript, .prefixOperator,
   .postfixOperator, .infixOperator, .lazy, .weak, .privateSet, .fileprivateSet, .internalSet]

/-- How a keyword is written in Swift source. -/
def spelling : Keyword → String
  | .protocol => "protocol"
  | .extension => "extension"
  | .struct => "struct"
  | .«class» => "class"
  | .«let» => "let"
  | .var => "var"
  | .«public» => "public"
  | .«private» => "private"
  | .«open» => "open"
  | .fileprivate => "fileprivate"
  | .internal => "internal"
  | .override => "override"
  | .func => "func"
  | .final => "final"
  | .enum => "enum"
  | .«case» => "case"
  | .init => "init"
  | .static => "static"
  | .typealias => "typealias"
  | .required => "required"
  | .mutating => "mutating"
  | .nonmutating => "nonmutating"
  | .«for» => "for"
  | .«while» => "while"
  | .«repeat» => "repeat"
  | .unowned => "unowned"
  | .unownedSafe => "unowned(safe)"
  | .unownedUnchecked => "unowned(unsafe)"
  | .convenience => "convenience"
  | .«do» => "do"
  | .«catch» => "catch"
  | .defer => "defer"
  | .subscript => "subscript"
  | .prefixOperator => "prefix"
  | .postfixOperator => "postfix"
  | .infixOperator => "infix"
  | .lazy => "lazy"
  | .weak => "weak"
  | .privateSet => "private(set)"
  | .fileprivateSet => "fileprivate(set)"
  | .internalSet => "internal(set)"

/-- The keyword spelled exactly as `word`, if any. -/
def ofWord? (word : String) : Option Keyword :=
  all.find? (·.spelling == word)

/-- Keywords that open a scope: type and extension declarations, functions, initialisers,
subscripts, properties, loops and the statement blocks `do`, `catch` and `defer`. -/
def structural : Keyword → Bool
  | .protocol | .«class» | .struct | .enum | .extension | .func | .init | .var | .«let»
  | .«for» | .«while» | .«repeat» | .«do» | .«catch» | .defer | .subscript => true
  | _ => false

/-- Keywords whose body is a local scope (or a protocol's requirement list), where members
take no access modifiers. -/
def localScope : Keyword → Bool
  | .func | .init | .«for» | .«while» | .«repeat» | .protocol | .«do» | .«catch» | .defer
  | .subscript => true
  | _ => false

/-- Keywords that never start a line carrying an access modifier: enum cases and statements. -/
def refusesAccess : Keyword → Bool
  | .«case» | .«for» | .«while» | .«repeat» | .«do» | .«catch» | .defer => true
  | _ => false

/-- Modifiers that a new access modifier is written after, never before (`static public`). -/
def accessFollows : Keyword → Bool
  | .static | .unowned | .unownedSafe | .unownedUnchecked | .required | .convenience => true
  | _ => false

/-- The level an access modifier keyword states. -/
def access? : Keyword → Option Access
  | .«private» => some .«private»
  | .fileprivate => some .fileprivate
  | .internal => some .internal
  | .«public» => some .«public»
  | .«open» => some .«open»
  | _ => none

/-- The level a setter modifier keyword states. -/
def setterAccess? : Keyword → Option Access
  | .privateSet => some .«private»
  | .fileprivateSet => some .fileprivate
  | .internalSet => some .internal
  | _ => none

/-- Whether a keyword is one of the five access modifiers. -/
def isAccess (k : Keyword) : Bool := k.access?.isSome

/-- Whether a keyword is one of the three setter modifiers. -/
def isSetter (k : Keyword) : Bool := k.setterAccess?.isSome

end Keyword

/-- The single characters that shape declarations: braces open and close scopes, a colon
introduces a conformance or a type, and `=` starts an initial value. -/
inductive Punct where
  | openBrace
  | closeBrace
  | colon
  | equals
  deriving DecidableEq, Repr, Inhabited

namespace Punct

/-- The character of a punctuation token. -/
def char : Punct → Char
  | .openBrace => '{'
  | .closeBrace => '}'
  | .colon => ':'
  | .equals => '='

/-- The punctuation token a character stands for, if any. -/
def ofChar? : Char → Option Punct
  | '{' => some .openBrace
  | '}' => some .closeBrace
  | ':' => some .colon
  | '=' => some .equals
  | _ => none

end Punct

/-- One lexical unit of a line. -/
inductive Token where
  /-- An attribute, `@` followed by its name, such as `@objc` or a lone `@`. -/
  | attribute (text : String)
  | keyword (k : Keyword)
  | punct (p : Punct)
  /-- Any other word, or a keyword used as a name. -/
  | identifier (text : String)
  deriving DecidableEq, Repr, Inhabited

namespace Token

/-- The keyword of a keyword token. -/
def keyword? : Token → Option Keyword
  | .keyword k => some k
  | _ => none

/-- Whether a token is this keyword. -/
def isKeyword (t : Token) (k : Keyword) : Bool := t.keyword? == some k

/-- Whether a token is a keyword or an attribute, the tokens a modifier can stand before. -/
def isKeywordOrAttribute : Token → Bool
  | .keyword _ | .attribute _ => true
  | _ => false

/-- The source text of a token. -/
def text : Token → String
  | .attribute s => s
  | .keyword k => k.spelling
  | .punct p => p.char.toString
  | .identifier s => s

end Token

end SwiftAccess
