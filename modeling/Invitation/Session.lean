import Invitation.Issuer

/-!
# Sessions

A session is a list of steps that share an environment: what one step draws is gone for the next,
and a step that fails ends nothing but itself.
-/

namespace Invitation

/-- One operation with its arguments. -/
inductive Step
  | create (key : Bytes) (settings : Settings) (encryptor : Encryptor)
  | generateKey
  | issue (issuer : Issuer) (inviter invitee : String) (now : UInt64)
  | verify (issuer : Issuer) (text : String) (now : UInt64)
  | verifyFor (issuer : Issuer) (text expected : String) (now : UInt64)
  | shortCode (issuer : Issuer) (text : String)
  | store (issuer : Issuer) (text : String)
  | restore (issuer : Issuer) (stored : String)
  | sealText (key : Bytes) (text : String)

/-- What a step gives back. -/
inductive Answer
  | issuer (issuer : Issuer)
  | key (key : SigningKey)
  | text (text : String)
  | contents (contents : Contents)

/-- What a step does. -/
def Step.action : Step → Action Answer
  | .create key settings encryptor => .issuer <$> Issuer.create key settings encryptor
  | .generateKey => .key <$> SigningKey.generate
  | .issue i inviter invitee now => .text <$> i.issue inviter invitee now
  | .verify i text now => .contents <$> liftExcept (i.verify text now)
  | .verifyFor i text expected now => .contents <$> liftExcept (i.verifyFor text expected now)
  | .shortCode i text => return .text (i.shortCode text)
  | .store i text => .text <$> i.store text
  | .restore i stored => .text <$> liftExcept (i.restore stored)
  | .sealText key text => .text <$> Encryptor.sealText key text

/-- The outcome of a step in an environment, and the environment afterwards. -/
def Step.run (s : Step) (env : Environment) : Except Error Answer × Environment := s.action.run env

/-- The outcomes of all steps in order, and the environment afterwards. -/
def Session.run : List Step → Environment → List (Except Error Answer) × Environment
  | [], env => ([], env)
  | s :: steps, env =>
    let (outcome, env) := s.run env
    let (outcomes, env) := Session.run steps env
    (outcome :: outcomes, env)

end Invitation
