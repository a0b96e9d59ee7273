import Invitation.Action
import Invitation.Bytes.Hex

/-!
# Encryptors for texts in storage

An encryptor turns a text into one that may be kept in storage and back, under a key. The usual one
seals the text with ChaCha20-Poly1305 under a fresh nonce and keeps nonce, ciphertext and tag as one
base64 text.
-/

namespace Invitation

/-- A way to keep texts in storage. -/
structure Encryptor where
  /-- The stored form of a text under a key. -/
  encrypt : Bytes → String → Action String
  /-- The text that a stored form holds under a key. -/
  decrypt : Bytes → String → Except Error String

/-! ## The usual encryptor -/

namespace Encryptor

/-- Seals a text under a fresh nonce. The length of the key is looked at before the nonce is
drawn. -/
def sealText (key : Bytes) (text : String) : Action String :=
  match Block.ofBytes? ChaCha20.keySize key with
  | none => throw (.sealing .keyLength)
  | some key => do
    let nonce ← Action.draw ChaCha20.nonceSize
    match Sealed.seal? key nonce (Utf8.encode text) with
    | none => throw (.sealing .tooLong)
    | some s => return Base64Url.encode (Stored.bytes ⟨nonce, s⟩)

/-- Opens a stored text, or gives the first reason why it does not open. -/
def openText (key : Bytes) (stored : String) : Except Error String :=
  match Base64Url.decode stored with
  | .error fault => .error (.opening (.notBase64 fault))
  | .ok data =>
    match Stored.ofBytes? data with
    | none => .error (.opening (.tooShort data.length))
    | some s =>
      match Block.ofBytes? ChaCha20.keySize key with
      | none => .error (.opening .keyLength)
      | some key =>
        match Sealed.unseal? key s.nonce s.sealed with
        | none => .error (.opening .unauthentic)
        | some b =>
          match Utf8.decode b with
          | .error fault => .error (.opening (.notUtf8 fault))
          | .ok text => .ok text

/-- The usual encryptor. -/
def chacha : Encryptor := ⟨sealText, openText⟩

/-! ## An encryptor for trials -/

/-- What a stored text holds behind a label, which ends at the first colon. -/
def readLabel (key : Bytes) (stored : String) : Except Error String :=
  let label := stored.toList.takeWhile (· ≠ ':')
  match stored.toList.dropWhile (· ≠ ':') with
  | [] => .error (.opening .unlabelled)
  | _ :: text =>
    if label = (Hex.encode key).toList then .ok (String.ofList text)
    else .error (.opening .mislabelled)

/-- An encryptor that hides nothing and draws nothing: it labels each text with its key, which
shows in a trial what key an issuer hands over. -/
def labelled : Encryptor := ⟨fun key text => return Hex.encode key ++ ":" ++ text, readLabel⟩

end Encryptor

end Invitation
