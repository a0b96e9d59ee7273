import Invitation.Proofs.Settings.Documents

/-!
# Documents are read exactly

Which texts are read as settings, and as which, is said here without the reader, and in terms of
the grammar alone.  From it follows what a document may vary in: the order of its members, the
blanks between its parts, the spelling of its names, and whatever members it has that are not known.
All that matters are the values of the two known members.  A document that is cut short is not read.
-/

namespace Invitation.Settings

open Json

/-- Where one list of members gives each field one value at most, another list with the same values
leads to the same draft. -/
lemma leads_of_perm {ms ms' : List Member} {d : Draft}
    (hperm : ∀ f : Field, (given ms f.name).Perm (given ms' f.name)) (h : Leads .empty ms d) :
    Leads .empty ms' d := by
  rw [leads_empty] at h ⊢
  intro f
  have hf := (hperm f).symm
  rw [h f, Draft.held] at hf
  rw [Draft.held]
  cases hv : d f with
  | none =>
    rw [hv] at hf
    exact List.perm_nil.1 hf
  | some v =>
    rw [hv] at hf
    exact List.perm_singleton.1 hf

/-- A text is read as settings if and only if it is, with blanks around it, an object that gives
each known member one value at most, and that a numeral of 64 bits, or an array of two such numerals
at most.  Two objects with the same values for the known members are read alike, and no text that a
written document goes on from is read at all. -/
theorem ofDocument_is_exact :
    (∀ (text : String) (s : Settings), ofDocument text = .ok s ↔
      ∃ seconds length : Option UInt64, s = ⟨.ofSeconds (seconds.getD 604800), length.getD 10⟩
        ∧ Padded (fun cs =>
          (∃ ms, Bracketed '{' '}' Member.Spelled ms cs
            ∧ given ms "ttl_secs" = (seconds.map numeral).toList
            ∧ given ms "short_code_length" = (length.map numeral).toList)
          ∨ ∃ ns : List UInt64, Bracketed '[' ']' Listed ns cs ∧ ns.length ≤ 2
            ∧ ns[0]? = seconds ∧ ns[1]? = length) text.toList)
    ∧ (∀ (text text' : String) (ms ms' : List Member),
      Padded (Bracketed '{' '}' Member.Spelled ms) text.toList →
      Padded (Bracketed '{' '}' Member.Spelled ms') text'.toList →
      (∀ f : Field, (given ms f.name).Perm (given ms' f.name)) →
      ∀ s, ofDocument text = .ok s ↔ ofDocument text' = .ok s)
    ∧ ∀ (s : Settings) (front back : String), front ++ back = document s → back ≠ "" →
      ∀ s', ofDocument front ≠ .ok s' := by
  refine ⟨fun text s => ?_, ?_, fun s front back h hback s' => ofDocument_ne_of_front h hback⟩
  · rw [ofDocument_eq_ok_iff]
    constructor
    · rintro ⟨d, ⟨before, body, after, htext, hbefore, hbody, hafter⟩, rfl⟩
      refine ⟨d .lifetime, d .codeLength, rfl, before, body, after, htext, hbefore, ?_, hafter⟩
      cases hbody with
      | @object _ ms _ h hleads => exact .inl ⟨ms, h, hleads .lifetime, hleads .codeLength⟩
      | @array ns _ h hlength => exact .inr ⟨ns, h, hlength, rfl, rfl⟩
    · rintro ⟨seconds, length, rfl, before, body, after, htext, hbefore, hbody, hafter⟩
      rcases hbody with ⟨ms, h, hseconds, hlength⟩ | ⟨ns, h, hlength, rfl, rfl⟩
      · have hleads : Leads .empty ms (.of seconds length) := by
          rw [leads_empty]
          rintro (_ | _)
          · exact hseconds
          · exact hlength
        exact ⟨_, ⟨before, body, after, htext, hbefore, .object h hleads, hafter⟩, rfl⟩
      · exact ⟨.inOrder ns, ⟨before, body, after, htext, hbefore, .array h hlength, hafter⟩, rfl⟩
  · intro text text' ms ms' h h' hperm s
    rw [ofDocument_eq_ok_iff_of_object h, ofDocument_eq_ok_iff_of_object h']
    constructor
    · rintro ⟨d, hleads, hs⟩
      exact ⟨d, leads_of_perm hperm hleads, hs⟩
    · rintro ⟨d, hleads, hs⟩
      exact ⟨d, leads_of_perm (fun f => (hperm f).symm) hleads, hs⟩

/-- A lifetime of one second is read also where its name is spelled with an escape and stands behind
a member that is not known; and a document without its last bracket is not read. -/
theorem ofDocument_escaped_name_and_cut :
    ofDocument "\x7b\"ttl_secs\":1\x7d" = .ok ⟨.ofSeconds 1, 10⟩
    ∧ ofDocument " \x7b\"x\":[],\"\\u0074tl_secs\":1\x7d" = .ok ⟨.ofSeconds 1, 10⟩
    ∧ (∀ s, ofDocument "\x7b\"ttl_secs\":1\x7d" = .ok s ↔
      ofDocument " \x7b\"x\":[],\"\\u0074tl_secs\":1\x7d" = .ok s)
    ∧ ∀ s', ofDocument "\x7b\"ttl_secs\":60,\"short_code_length\":0" ≠ .ok s' := by
  have hunknown : Key true ['x'] _ :=
    .mk blanks_nil (spells_of_plain (by decide)) blanks_nil
  have hescape : Escape true 't' ('u' :: ['0', '0', '7', '4']) :=
    .number (FourDigits.mk (w := 0) (x := 0) (y := 7) (z := 4) (by decide) (by decide) (by decide)
      (by decide))
  have hplain : Spells true "tl_secs".toList "tl_secs".toList :=
    spells_of_plain (by decide)
  have hname : Key true "ttl_secs".toList _ :=
    .mk blanks_nil (.escaped hescape hplain) blanks_nil
  have hfirst : Bracketed '{' '}' Member.Spelled [Field.lifetime.member 1] _ :=
    .filled (.last (Field.spelled_text .lifetime 1))
  have hsecond : Bracketed '{' '}' Member.Spelled [⟨['x'], _⟩, Field.lifetime.member 1] _ :=
    .filled (.cons (.mk hunknown blanks_nil (.noElements blanks_nil) blanks_nil)
      (.last (.mk hname blanks_nil (wellFormed_numeral 1) blanks_nil)))
  obtain ⟨hread, halike, hcut⟩ := ofDocument_is_exact
  have hplainly : ofDocument "\x7b\"ttl_secs\":1\x7d" = .ok ⟨.ofSeconds 1, 10⟩ :=
    (hread _ _).2 ⟨some 1, none, rfl, [], _, [], by decide, blanks_nil,
      .inl ⟨_, hfirst, by decide, by decide⟩, blanks_nil⟩
  have hboth := halike "\x7b\"ttl_secs\":1\x7d" " \x7b\"x\":[],\"\\u0074tl_secs\":1\x7d" _ _
    ⟨[], _, [], by decide, blanks_nil, hfirst, blanks_nil⟩
    ⟨[' '], _, [], by decide, by decide, hsecond, blanks_nil⟩ (by rintro (_ | _) <;> decide)
  exact ⟨hplainly, (hboth _).1 hplainly, hboth,
    hcut ⟨.ofSeconds 60, 0⟩ _ "\x7d" (by decide) (by decide)⟩

end Invitation.Settings
