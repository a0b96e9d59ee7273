import Invitation.Encryptor
import Invitation.SigningKey
import Invitation.Token.Basic
import Invitation.Token.Contents
import Invitation.Token.ShortCode

/-!
# Issuers

An issuer makes and verifies tokens under one signing key. Verification looks at a token's form, its
tag, its age and, if asked to, its recipient, in this order; only the age has an error of its own.
-/

namespace Invitation

/-- Who makes and verifies tokens. -/
structure Issuer where
  key : SigningKey
  settings : Settings
  encryptor : Encryptor

namespace Issuer

/-- Builds an issuer, and tells the log. -/
def create (key : Bytes) (settings : Settings) (encryptor : Encryptor) : Action Issuer := do
  let key ← liftExcept (SigningKey.ofBytes key)
  Action.record (.ready key.length settings.lifetime.seconds)
  return ⟨key, settings, encryptor⟩

/-! ## Tokens -/

/-- Issues a token at the time `now`, and tells the log. -/
def issue (i : Issuer) (inviter invitee : String) (now : UInt64) : Action String := do
  let entropy ← Action.draw Payload.entropySize
  let token := Token.ofPayload i.key.bytes ⟨entropy, now, inviter, invitee⟩
  Action.record (.issued token.utf8ByteSize)
  return token

/-- Verifies a token at the time `now`. -/
def verify (i : Issuer) (text : String) (now : UInt64) : Except Error Contents :=
  match Token.authentic? i.key.bytes text with
  | none => .error .invalidToken
  | some p =>
    if i.settings.lifetime.isOver p.timestamp now then .error .tokenExpired
    else .ok p.contents

/-- Verifies a token at the time `now` and its recipient, whose name has to agree to the letter. -/
def verifyFor (i : Issuer) (text expected : String) (now : UInt64) : Except Error Contents :=
  match i.verify text now with
  | .error e => .error e
  | .ok c => if c.invitee = expected then .ok c else .error .invalidToken

/-- The short code of a text, which need not be a token. -/
def shortCode (i : Issuer) (text : String) : String :=
  Invitation.shortCode i.key.bytes text i.settings.codeLength

/-! ## Storage -/

/-- The stored form of a text. -/
def store (i : Issuer) (text : String) : Action String :=
  i.encryptor.encrypt i.key.storageKey.bytes text

/-- The text that a stored form holds. It is still to be verified. -/
def restore (i : Issuer) (stored : String) : Except Error String :=
  i.encryptor.decrypt i.key.storageKey.bytes stored

/-! ## Shown as text -/

/-- An issuer on one line, without its secrets. -/
def describe (i : Issuer) : String :=
  s!"InviteTokenGenerator \x7b signing_key: {i.key.describe}, config: {i.settings.describe}, .. \x7d"

/-- An issuer with a line for each part, without its secrets. -/
def describeLines (i : Issuer) : String :=
  let settings := i.settings.describeLines "    "
  s!"InviteTokenGenerator \x7b\n    signing_key: {i.key.describe},\n    config: {settings},\n"
    ++ "    ..\n\x7d"

end Issuer

end Invitation
