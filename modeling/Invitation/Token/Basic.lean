import Invitation.Text.Base64Url
import Invitation.Token.Payload
import Invitation.Token.Tag

/-!
# Tokens

A token is the text of a payload followed by its tag. `authentic?` gives the payload of a token
that was sealed under a key, and gives the same answer to all others, whatever is wrong with them.
-/

namespace Invitation.Token

/-- The version of the layout of tokens. Tokens do not carry it. -/
def formatVersion : Nat := 1

/-- The length in bytes of a token without names. -/
def minSize : Nat := Payload.headerSize + Tag.size

/-- The token of a payload under a key. -/
def ofPayload (key : Bytes) (p : Payload) : String :=
  Base64Url.encode (p.encode ++ (Tag.of key p.encode).bytes)

example :
    ofPayload (List.replicate 32 0x42)
        ⟨⟨List.replicate 16 0x11, rfl⟩, 1700000000, "alice@example.com", "bob@example.com"⟩
      = "EREREREREREREREREREREQAAAABlU_EAABFhbGljZUBleGFtcGxlLmNvbWJvYkBleGFtcGxlLmNvbfvnvC9DvRBz"
        ++ "2jqUjbTkX2Y" := by
  decide +kernel

/-- Whether a text has the form of a token and the length of one. Nothing is said about who wrote
it. -/
def isWellFormed (text : String) : Bool :=
  match Base64Url.decode text with
  | .ok data => minSize ≤ data.length
  | .error _ => false

/-- The payload of a text that is a token under a key. -/
def authentic? (key : Bytes) (text : String) : Option Payload :=
  match Base64Url.decode text with
  | .error _ => none
  | .ok data =>
    if data.length < minSize then none
    else
      let payload := data.take (data.length - Tag.size)
      let tag := data.drop (data.length - Tag.size)
      if Tag.check key payload tag then
        match Payload.decode payload with
        | .ok p => some p
        | .error _ => none
      else none

end Invitation.Token
