import SourceMask.Text.Order

/-!
# Tokens

A token is a piece of text that a language model sees as one unit.  It carries neither kind nor
place: its meaning comes from its text and from its place in the sequence.  Tokens are ordered as
their texts are, by code points, which is also the order of their UTF-8 bytes.
-/

namespace SourceMask

/-- One unit of a token sequence. -/
structure Token where
  text : Text
  deriving DecidableEq, Repr, Inhabited

namespace Token

/-- The token with the given text. -/
def ofString (text : String) : Token := ⟨text.toList⟩

/-- Whether a token reads as the given text. -/
def reads (token : Token) (text : Text) : Bool := token.text = text

/-- The order of tokens is that of their texts. -/
def le (first second : Token) : Bool := Text.le first.text second.text

/-- One copy of each run of equal neighbours. -/
def dropRepeats : List Token → List Token
  | [] => []
  | token :: rest =>
    match rest with
    | [] => [token]
    | next :: _ => if token = next then dropRepeats rest else token :: dropRepeats rest

/-- The different tokens of a list in ascending order. -/
def vocabulary (tokens : List Token) : List Token := dropRepeats (tokens.mergeSort le)

end Token

end SourceMask
