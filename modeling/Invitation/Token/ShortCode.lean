import Invitation.Hash.Hmac
import Invitation.Settings.Basic
import Invitation.Text.Base64Url

/-!
# Short codes

A short code names a token where the token itself is too long. It is the beginning of the text of
the token's digest, so a longer code of the same token goes on where a shorter one stops.
-/

namespace Invitation

/-- The longest short code of a text, which spells its whole digest under a key. -/
def fullCode (key : Bytes) (text : String) : String :=
  Base64Url.encode (hmac key (Utf8.encode text)).bytes

/-- The short code of a text under a key, of the length asked for or the nearest that exists. -/
def shortCode (key : Bytes) (text : String) (length : UInt64) : String :=
  String.ofList ((fullCode key text).toList.take (Settings.clampLength length))

end Invitation
