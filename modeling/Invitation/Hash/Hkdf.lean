import Invitation.Hash.Hmac

/-!
# Keys derived from keys

HKDF-SHA256 draws a key of one digest's length out of a secret: it extracts a uniform key under a
salt and expands it under a text that names the use. Longer outputs are not needed here.
-/

namespace Invitation.Hkdf

/-- The uniform key behind a secret. -/
def extract (salt secret : Bytes) : Block Sha256.digestSize := hmac salt secret

/-- The first output block for the use that `info` names. -/
def expand (key : Block Sha256.digestSize) (info : Bytes) : Block Sha256.digestSize :=
  hmac key.bytes (info ++ [1])

/-- The key derived from a secret under a salt, for the use that `info` names. -/
def derive (salt secret info : Bytes) : Block Sha256.digestSize := expand (extract salt secret) info

end Invitation.Hkdf
