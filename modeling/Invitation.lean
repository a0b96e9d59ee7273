import Invitation.Clock
import Invitation.Proofs.Issuer.Gates
import Invitation.Proofs.Issuer.KeyIsolation
import Invitation.Proofs.Issuer.ShortCodes
import Invitation.Proofs.Session.Logging
import Invitation.Proofs.Session.Randomness
import Invitation.Proofs.Session.Uniqueness
import Invitation.Proofs.Token.PayloadFormat
import Invitation.Settings.Document
import Invitation.Proofs.Issuer.Freshness
import Invitation.Proofs.Json.Grammar
import Invitation.Proofs.Json.Numbers
import Invitation.Proofs.Json.Strings
import Invitation.Proofs.Json.Values
import Invitation.Proofs.Settings.Members
import Invitation.Proofs.Settings.Documents
import Invitation.Proofs.Settings.Layout
import Invitation.Proofs.Issuer.CodeLengths
import Invitation.Proofs.Settings.RoundTrip
import Invitation.Proofs.Issuer.Screening
import Invitation.Proofs.Issuer.Instants
import Invitation.Proofs.Text.CutFromEnd
