import Invitation.Issuer
import Invitation.Proofs.Issuer.RoundTrip
import Invitation.Proofs.Settings.Documents
import Invitation.Proofs.Text.Base64Form

/-!
# Short codes of all lengths

A digest of 32 bytes is spelled by 43 symbols, and every short code of a text is the beginning of
that spelling, of the length that was asked for or of the nearest that exists.  Settings bring the
length into its range when it is chosen and short codes do so again when they are made, which
changes nothing the second time (`clampLength_withCodeLength`).  So it makes no difference by which
way a length has come into the settings of an issuer (`short_codes_are_prefixes`).
-/

namespace Invitation

/-! ## The spelling of a digest -/

/-- A digest is spelled by 43 symbols. -/
lemma length_fullCode (key : Bytes) (text : String) : (fullCode key text).length = 43 := by
  rw [fullCode, Base64Url.length_encode, Base64Url.length_digits,
    (hmac key (Utf8.encode text)).property]
  rfl

/-- The spelling of a digest is read back as the digest. -/
lemma decode_fullCode (key : Bytes) (text : String) :
    Base64Url.decode (fullCode key text) = .ok (hmac key (Utf8.encode text)).bytes :=
  Base64Url.decode_eq_ok_iff.2 rfl

/-- Different digests are spelled differently. -/
lemma fullCode_eq_iff {key key' : Bytes} {text text' : String} :
    fullCode key text = fullCode key' text'
      ↔ hmac key (Utf8.encode text) = hmac key' (Utf8.encode text') := by
  constructor
  · intro h
    exact Subtype.ext (Base64Url.encode_injective h)
  · intro h
    rw [fullCode, fullCode, h]

/-! ## The beginnings of a spelling -/

/-- A short code is the beginning of the spelling of the digest. -/
lemma toList_shortCode (key : Bytes) (text : String) (n : UInt64) :
    (shortCode key text n).toList = (fullCode key text).toList.take (Settings.clampLength n) := by
  rw [shortCode, String.toList_ofList]

/-- A short code has the length that is nearest to the one asked for. -/
lemma length_shortCode (key : Bytes) (text : String) (n : UInt64) :
    (shortCode key text n).length = Settings.clampLength n := by
  rw [← String.length_toList, toList_shortCode, List.length_take, String.length_toList,
    length_fullCode]
  exact Nat.min_eq_left (Nat.min_le_right _ _)

/-- The longest short code is the whole spelling. -/
lemma shortCode_longest (key : Bytes) (text : String) :
    shortCode key text 43 = fullCode key text := by
  rw [shortCode, List.take_of_length_le, String.ofList_toList]
  rw [String.length_toList, length_fullCode]
  decide

/-- Of two short codes of a text the longer one goes on where the shorter one stops. -/
lemma shortCode_begins {m n : UInt64} (h : Settings.clampLength m ≤ Settings.clampLength n)
    (key : Bytes) (text : String) :
    (shortCode key text m).toList <+: (shortCode key text n).toList := by
  rw [toList_shortCode, toList_shortCode]
  exact List.take_prefix_take_left h

/-! ## Lengths in settings -/

namespace Settings

/-- A length that is brought into its range lies in it. -/
lemma clampLength_mem_range (n : UInt64) : 1 ≤ clampLength n ∧ clampLength n ≤ 43 := by
  unfold clampLength maxCodeLength
  omega

/-- The length that settings hold once it was chosen is the nearest to the one asked for. -/
lemma toNat_codeLength_withCodeLength (s : Settings) (n : UInt64) :
    (s.withCodeLength n).codeLength.toNat = clampLength n := by
  have hfits : clampLength n < 2 ^ 64 := lt_of_le_of_lt (clampLength_mem_range n).2 (by decide)
  rw [withCodeLength, UInt64.toNat_ofNat', Nat.mod_eq_of_lt hfits]

/-- A chosen length is in its range, where it stays as it is. -/
lemma clampLength_withCodeLength (s : Settings) (n : UInt64) :
    clampLength (s.withCodeLength n).codeLength = clampLength n := by
  have hrange := clampLength_mem_range n
  rw [clampLength, toNat_codeLength_withCodeLength, maxCodeLength]
  omega

end Settings

/-- A length that was chosen makes the code of the length that was asked for. -/
lemma shortCode_withCodeLength (key : Bytes) (text : String) (s : Settings) (n : UInt64) :
    shortCode key text (s.withCodeLength n).codeLength = shortCode key text n := by
  rw [shortCode, shortCode, Settings.clampLength_withCodeLength]

/-- Under any key, the short codes of a text are the beginnings of one text of 43 characters that
spells the digest, so that texts share it exactly if they have the same digest.  Settings hold a
length that was chosen as the nearest in its range, and one that was set or read from a document as
it stands; an issuer makes the same code from all three. -/
theorem short_codes_are_prefixes (key : Bytes) (text : String) :
    (∃ full : String, full.length = 43
      ∧ Base64Url.decode full = .ok (hmac key (Utf8.encode text)).bytes
      ∧ ∀ n : UInt64, (shortCode key text n).length = min (max n.toNat 1) 43
        ∧ (∀ c ∈ (shortCode key text n).toList, c ∈ Base64Url.alphabet)
        ∧ (shortCode key text n).toList = full.toList.take (min (max n.toNat 1) 43))
    ∧ (∀ m n : UInt64, (shortCode key text m).toList <+: (shortCode key text n).toList
      ∨ (shortCode key text n).toList <+: (shortCode key text m).toList)
    ∧ (∀ (key' : Bytes) (text' : String), shortCode key text 43 = shortCode key' text' 43
      ↔ hmac key (Utf8.encode text) = hmac key' (Utf8.encode text'))
    ∧ ∀ (i : Issuer) (n : UInt64), i.key.bytes = key →
      let code (s : Settings) : String := Issuer.shortCode { i with settings := s } text
      (i.settings.withCodeLength n).codeLength.toNat = min (max n.toNat 1) 43
      ∧ code (i.settings.withCodeLength n) = shortCode key text n
      ∧ { i.settings with codeLength := n }.codeLength = n
      ∧ code { i.settings with codeLength := n } = shortCode key text n
      ∧ ∀ (document : String) (d : Settings.Draft),
        Json.Padded (Settings.Document d) document.toList → d .codeLength = some n →
        ∃ parsed, Settings.ofDocument document = .ok parsed ∧ parsed.codeLength = n
          ∧ code parsed = shortCode key text n := by
  refine ⟨⟨fullCode key text, length_fullCode key text, decode_fullCode key text, fun n => ?_⟩,
    fun m n => ?_, fun key' text' => ?_, ?_⟩
  · refine ⟨length_shortCode key text n, fun c hc => ?_, toList_shortCode key text n⟩
    rw [toList_shortCode] at hc
    exact Base64Url.mem_alphabet (List.mem_of_mem_take hc)
  · rcases Nat.le_total (Settings.clampLength m) (Settings.clampLength n) with h | h
    · exact .inl (shortCode_begins h key text)
    · exact .inr (shortCode_begins h key text)
  · rw [shortCode_longest, shortCode_longest, fullCode_eq_iff]
  · rintro i n rfl
    refine ⟨Settings.toNat_codeLength_withCodeLength i.settings n,
      shortCode_withCodeLength i.key.bytes text i.settings n, rfl, rfl, ?_⟩
    intro document d hdocument hlength
    have hparsed : d.settings.codeLength = n := by
      change (d .codeLength).getD Settings.usualCodeLength = n
      rw [hlength, Option.getD_some]
    refine ⟨d.settings, Settings.ofDocument_eq_ok_iff.2 ⟨d, hdocument, rfl⟩, hparsed, ?_⟩
    change shortCode i.key.bytes text d.settings.codeLength = _
    rw [hparsed]

/-- A length beyond the longest is held as it stands when it is read from an array, and as the
longest when it is chosen, and makes the same code. -/
theorem shortCode_of_listed_length :
    (Settings.usual.withCodeLength 99).codeLength.toNat = 43
      ∧ ∃ parsed, Settings.ofDocument "[60,99]" = .ok parsed ∧ parsed.codeLength = 99
        ∧ (Issuer.trial parsed).shortCode "token"
          = (Issuer.trial (Settings.usual.withCodeLength 99)).shortCode "token" := by
  have hnumbers : Settings.Document (.inOrder [60, 99]) _ :=
    .array (.filled (.cons (Settings.listed 60 Json.blanks_nil Json.blanks_nil)
      (.last (Settings.listed 99 Json.blanks_nil Json.blanks_nil)))) (by decide)
  obtain ⟨hheld, hchosen, -, -, hread⟩ :=
    (short_codes_are_prefixes _ "token").2.2.2 (Issuer.trial .usual) 99 rfl
  obtain ⟨parsed, hparsed, hlength, hcode⟩ := hread "[60,99]" _
    ⟨[], _, [], by decide, Json.blanks_nil, hnumbers, Json.blanks_nil⟩ rfl
  exact ⟨hheld, parsed, hparsed, hlength, hcode.trans hchosen.symm⟩

end Invitation
