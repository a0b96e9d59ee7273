import Invitation.Proofs.Settings.Members

/-!
# The documents of settings

`Document d cs` says that `cs` is an object or an array that gives the values in `d`, with no blanks
around it.  A text is read as settings if and only if it is such a document with blanks around it
(`ofDocument_eq_ok_iff`), and the settings that are written are read again, but for the nanoseconds
(`ofDocument_document`).
-/

namespace Invitation.Settings

open Json

/-! ## Drafts -/

/-- The draft that holds the given values. -/
def Draft.of (seconds length : Option UInt64) : Draft
  | .lifetime => seconds
  | .codeLength => length

/-- The draft that numbers in order stand for. -/
def Draft.inOrder (ns : List UInt64) : Draft := .of ns[0]? ns[1]?

/-- Without numbers no field is given. -/
lemma Draft.inOrder_nil : Draft.inOrder [] = .empty := by
  funext f
  cases f <;> rfl

/-- The first number is the lifetime. -/
lemma Draft.inOrder_one (v : UInt64) : Draft.inOrder [v] = Draft.empty.insert .lifetime v := by
  funext f
  cases f <;> rfl

/-- The second number is the length of short codes. -/
lemma Draft.inOrder_two (v w : UInt64) :
    Draft.inOrder [v, w] = (Draft.empty.insert .lifetime v).insert .codeLength w := by
  funext f
  cases f <;> rfl

/-! ## Arrays -/

/-- What stands for a number in an array. -/
def Listed (n : UInt64) : List Char → Prop := Padded (· = numeral n)

/-- A numeral with blanks around it is an element. -/
lemma listed (n : UInt64) {before after : List Char} (hbefore : Blanks before)
    (hafter : Blanks after) : Listed n (before ++ (numeral n ++ after)) :=
  ⟨before, _, after, rfl, hbefore, rfl, hafter⟩

/-- An array ends at its closing bracket, with nothing but blanks before it. -/
lemma arrayEnd_eq_ok_iff {cs rest : List Char} :
    arrayEnd cs = .ok rest ↔ ∃ after, cs = after ++ ']' :: rest ∧ Blanks after := by
  unfold arrayEnd
  constructor
  · intro h
    split at h
    · cases h
    · next hb =>
      split at h
      · next hc =>
        cases h
        exact hc ▸ exists_blanks hb
      · cases h
  · rintro ⟨after, rfl, hafter⟩
    simp only [skipBlank_append_cons hafter (show isBlank ']' = false by decide), if_true]

/-- Where a numeral stands, an array does not end. -/
lemma skipBlank_ne_of_natural {cs mid rest : List Char} {v : UInt64}
    (h : natural cs = .ok (v, mid)) : skipBlank cs ≠ ']' :: rest := by
  obtain ⟨before, rfl, hbefore⟩ := exists_numeral_of_natural h
  obtain ⟨c, tail, hnumeral, -, hc, -⟩ := (wellFormed_numeral v).head
  rw [(wellFormed_numeral v).skipBlank_append hbefore, hnumeral]
  exact fun heq => hc (List.cons.inj heq).1

section Array

variable {cs mid rest : List Char} {v : UInt64} (hv : natural cs = .ok (v, mid))

include hv

/-- An array of one number. -/
lemma array_of_end {after : List Char} (hafter : Blanks after) (hmid : mid = after ++ ']' :: rest) :
    array cs = .ok (.inOrder [v], rest) := by
  have hbracket := skipBlank_append_cons hafter (show isBlank ']' = false by decide) rest
  unfold array
  split
  · next hb => exact absurd hb (skipBlank_ne_of_natural hv)
  · simp only [hv, hmid, hbracket, Draft.inOrder_one]
    rfl

/-- An array of two numbers. -/
lemma array_of_comma {after mid' mid'' : List Char} {w : UInt64} (hafter : Blanks after)
    (hmid : mid = after ++ ',' :: mid') (hw : natural mid' = .ok (w, mid''))
    (hend : arrayEnd mid'' = .ok rest) : array cs = .ok (.inOrder [v, w], rest) := by
  have hcomma := skipBlank_append_cons hafter (show isBlank ',' = false by decide) mid'
  unfold array
  split
  · next hb => exact absurd hb (skipBlank_ne_of_natural hv)
  · simp only [hv, hmid, hcomma, hw, hend, Draft.inOrder_two]

end Array

/-- What is read as an array is one of at most two numerals. -/
lemma exists_listed_of_array {d : Draft} {cs rest : List Char} (h : array cs = .ok (d, rest)) :
    ∃ ns body, '[' :: cs = body ++ rest ∧ Bracketed '[' ']' Listed ns body ∧ ns.length ≤ 2
      ∧ d = .inOrder ns := by
  unfold array at h
  split at h
  · next hb =>
    cases h
    obtain ⟨blanks, rfl, hblanks⟩ := exists_blanks hb
    exact ⟨[], _, by simp, .empty hblanks, by decide, Draft.inOrder_nil.symm⟩
  · split at h
    · cases h
    · next v mid hv =>
      obtain ⟨before, rfl, hbefore⟩ := exists_numeral_of_natural hv
      simp only at h
      split at h
      · next hb =>
        obtain ⟨after, rfl, hafter⟩ := exists_blanks hb
        split at h
        · cases h
        · next w _ hw =>
          obtain ⟨before', rfl, hbefore'⟩ := exists_numeral_of_natural hw
          split at h
          · cases h
          · next hend =>
            cases h
            obtain ⟨after', rfl, hafter'⟩ := arrayEnd_eq_ok_iff.1 hend
            exact ⟨[v, w], _, by simp, .filled
              (.cons (listed v hbefore hafter) (.last (listed w hbefore' hafter'))), by simp,
              (Draft.inOrder_two v w).symm⟩
      · split at h
        · cases h
        · next hend =>
          cases h
          obtain ⟨after, hafter, hblanks⟩ := arrayEnd_eq_ok_iff.1 hend
          obtain ⟨blanks, rfl, hblanks'⟩ := exists_blanks hafter
          have hall : Blanks (blanks ++ after) := by
            intro c hc
            exact (List.mem_append.1 hc).elim (hblanks' c) (hblanks c)
          exact ⟨[v], _, by simp, .filled (.last (listed v hbefore hall)), by simp,
            (Draft.inOrder_one v).symm⟩

/-- The reader of arrays reads the arrays of at most two numerals. -/
theorem array_eq_ok_iff {d : Draft} {cs rest : List Char} :
    array cs = .ok (d, rest) ↔ ∃ ns body, '[' :: cs = body ++ rest
      ∧ Bracketed '[' ']' Listed ns body ∧ ns.length ≤ 2 ∧ d = .inOrder ns := by
  refine ⟨exists_listed_of_array, ?_⟩
  rintro ⟨ns, body, hcs, hbody, hlength, rfl⟩
  cases hbody with
  | @empty blanks hblanks =>
    obtain rfl : cs = blanks ++ ']' :: rest := by simpa using hcs
    rw [array, skipBlank_append_cons hblanks (by decide), Draft.inOrder_nil]
    rfl
  | @filled _ text htext =>
    obtain rfl : cs = text ++ ']' :: rest := by simpa using hcs
    cases htext with
    | last h =>
      obtain ⟨before, _, after, rfl, hbefore, rfl, hafter⟩ := h
      simp only [List.append_assoc]
      exact array_of_end
        (natural_append hbefore _ (delimited_append_cons hafter (by decide) rest)) hafter rfl
    | cons h hrest =>
      obtain ⟨before, _, after, rfl, hbefore, rfl, hafter⟩ := h
      cases hrest with
      | last h' =>
        obtain ⟨before', _, after', rfl, hbefore', rfl, hafter'⟩ := h'
        simp only [List.append_assoc, List.cons_append]
        exact array_of_comma
          (natural_append hbefore _ (delimited_append_cons hafter (by decide) _)) hafter rfl
          (natural_append hbefore' _ (delimited_append_cons hafter' (by decide) rest))
          (arrayEnd_eq_ok_iff.2 ⟨after', rfl, hafter'⟩)
      | cons _ hrest =>
        cases hrest <;> simp only [List.length_cons] at hlength <;> omega

/-! ## Documents -/

/-- A document, and the values that it gives. -/
inductive Document : Draft → List Char → Prop
  | object {d : Draft} {ms : List Member} {cs : List Char}
      (h : Bracketed '{' '}' Member.Spelled ms cs) (hleads : Leads .empty ms d) : Document d cs
  | array {ns : List UInt64} {cs : List Char} (h : Bracketed '[' ']' Listed ns cs)
      (hlength : ns.length ≤ 2) : Document (.inOrder ns) cs

/-- What is read at the top is a document, with blanks before it. -/
lemma topLevel_eq_ok_iff {d : Draft} {cs rest : List Char} :
    topLevel cs = .ok (d, rest) ↔
      ∃ before body, cs = before ++ (body ++ rest) ∧ Blanks before ∧ Document d body := by
  unfold topLevel
  constructor
  · intro h
    split at h
    · next hb =>
      obtain ⟨before, rfl, hbefore⟩ := exists_blanks hb
      obtain ⟨ms, body, hbody, hobject, hleads⟩ := object_eq_ok_iff.1 h
      exact ⟨before, body, by rw [hbody], hbefore, .object hobject hleads⟩
    · next hb =>
      obtain ⟨before, rfl, hbefore⟩ := exists_blanks hb
      obtain ⟨ns, body, hbody, harray, hlength, rfl⟩ := array_eq_ok_iff.1 h
      exact ⟨before, body, by rw [hbody], hbefore, .array harray hlength⟩
    · cases h
  · rintro ⟨before, body, rfl, hbefore, hbody⟩
    cases hbody with
    | @object _ ms _ h hleads =>
      obtain ⟨inner, hbody⟩ := h.exists_eq
      subst hbody
      rw [List.cons_append, skipBlank_append_cons hbefore (by decide)]
      exact object_eq_ok_iff.2 ⟨ms, _, rfl, h, hleads⟩
    | @array ns _ h hlength =>
      obtain ⟨inner, hbody⟩ := h.exists_eq
      subst hbody
      rw [List.cons_append, skipBlank_append_cons hbefore (by decide)]
      exact array_eq_ok_iff.2 ⟨ns, _, rfl, h, hlength, rfl⟩

/-- The texts that are read as settings are the documents, with blanks around them. -/
theorem ofDocument_eq_ok_iff {text : String} {s : Settings} :
    ofDocument text = .ok s ↔ ∃ d, Padded (Document d) text.toList ∧ d.settings = s := by
  unfold ofDocument
  constructor
  · intro h
    split at h
    · cases h
    · next d rest htop =>
      split at h
      · next hrest =>
        obtain ⟨before, body, htext, hbefore, hbody⟩ := topLevel_eq_ok_iff.1 htop
        obtain ⟨after, hafter, hblanks⟩ := exists_blanks hrest
        rw [List.append_nil] at hafter
        exact ⟨d, ⟨before, body, rest, htext, hbefore, hbody, hafter ▸ hblanks⟩,
          Except.ok.inj h⟩
      · cases h
  · rintro ⟨d, ⟨before, body, after, htext, hbefore, hbody, hafter⟩, rfl⟩
    rw [topLevel_eq_ok_iff.2 ⟨before, body, htext, hbefore, hbody⟩]
    simp only [skipBlank_of_blanks hafter, if_true]

/-! ## Documents that are objects -/

/-- What an object means is settled by the values of its known members. -/
theorem ofDocument_eq_ok_iff_of_object {text : String} {ms : List Member}
    (h : Padded (Bracketed '{' '}' Member.Spelled ms) text.toList) {s : Settings} :
    ofDocument text = .ok s ↔ ∃ d, Leads .empty ms d ∧ d.settings = s := by
  obtain ⟨before, body, after, htext, hbefore, hbody, hafter⟩ := h
  rw [ofDocument_eq_ok_iff]
  constructor
  · rintro ⟨d, ⟨before', body', after', htext', hbefore', hbody', -⟩, rfl⟩
    obtain ⟨inner, hhead⟩ := hbody.exists_eq
    have hsame : skipBlank text.toList = body ++ after := by
      rw [htext, hhead, List.cons_append, skipBlank_append_cons hbefore (by decide)]
    cases hbody' with
    | object h' hleads =>
      obtain ⟨inner', hhead'⟩ := h'.exists_eq
      rw [htext', hhead', List.cons_append, skipBlank_append_cons hbefore' (by decide),
        ← List.cons_append, ← hhead'] at hsame
      obtain rfl := eq_of_bracketed h' hbody hsame
      exact ⟨d, hleads, rfl⟩
    | array h' =>
      obtain ⟨inner', hhead'⟩ := h'.exists_eq
      rw [htext', hhead', List.cons_append, skipBlank_append_cons hbefore' (by decide), hhead]
        at hsame
      cases hsame
  · rintro ⟨d, hleads, rfl⟩
    exact ⟨d, ⟨before, body, after, htext, hbefore, .object hbody hleads, hafter⟩, rfl⟩

/-! ## Documents that are written -/

/-- A field with its value, as a member. -/
def Field.member (f : Field) (v : UInt64) : Member := ⟨f.name.toList, numeral v⟩

/-- A member without blanks in it. -/
def Field.text (f : Field) (v : UInt64) : List Char :=
  '"' :: (f.name.toList ++ '"' :: ':' :: numeral v)

/-- A field is written as a member that carries its numeral. -/
lemma Field.spelled_text (f : Field) (v : UInt64) : (f.member v).Spelled (f.text v) := by
  have hplain : ∀ f : Field, Plain f.name.toList := by
    rintro (_ | _) <;> decide
  have hkey : Key true (f.member v).name ('"' :: (f.name.toList ++ ['"', ':'])) :=
    .mk blanks_nil (spells_of_plain (hplain f)) blanks_nil
  have h := Member.Spelled.mk hkey blanks_nil (wellFormed_numeral v) blanks_nil
  simpa [Field.text, Field.member] using h

/-- A written document is an object of its two fields, without blanks. -/
lemma toList_document (s : Settings) :
    (document s).toList = '{' :: (Field.lifetime.text s.lifetime.seconds
      ++ ',' :: Field.codeLength.text s.codeLength ++ ['}']) := by
  have hid (t : String) : toString t = t := rfl
  simp [document, Field.text, numeral, hid]

/-- The members of the document of settings. -/
lemma bracketed_document (s : Settings) :
    Bracketed '{' '}' Member.Spelled
      [Field.lifetime.member s.lifetime.seconds, Field.codeLength.member s.codeLength]
      (document s).toList := by
  rw [toList_document]
  exact .filled (.cons (Field.spelled_text _ _) (.last (Field.spelled_text _ _)))

/-- The document of settings gives both values. -/
lemma Document.written (s : Settings) :
    Document (.inOrder [s.lifetime.seconds, s.codeLength]) (document s).toList := by
  refine .object (bracketed_document s) fun f => ?_
  have hne : Field.lifetime.name.toList ≠ Field.codeLength.name.toList := by decide
  cases f with
  | lifetime =>
    simp [given, Field.member, Draft.held, Draft.empty, Draft.inOrder, Draft.of, hne.symm]
  | codeLength =>
    simp [given, Field.member, Draft.held, Draft.empty, Draft.inOrder, Draft.of, hne]

/-- Settings are read as they were written, but for the nanoseconds. -/
theorem ofDocument_document (s : Settings) :
    ofDocument (document s) = .ok ⟨.ofSeconds s.lifetime.seconds, s.codeLength⟩ :=
  ofDocument_eq_ok_iff.2
    ⟨_, ⟨[], _, [], by simp, blanks_nil, Document.written s, blanks_nil⟩, rfl⟩

/-- What is read from a text is read from every longer one, and what is added is left. -/
lemma topLevel_append {d : Draft} {cs rest : List Char} (h : topLevel cs = .ok (d, rest))
    (more : List Char) : topLevel (cs ++ more) = .ok (d, rest ++ more) := by
  obtain ⟨before, body, rfl, hbefore, hbody⟩ := topLevel_eq_ok_iff.1 h
  exact topLevel_eq_ok_iff.2 ⟨before, body, by simp, hbefore, hbody⟩

/-- No text that a document goes on from can be read. -/
lemma ofDocument_ne_of_front {s s' : Settings} {front back : String}
    (h : front ++ back = document s) (hback : back ≠ "") : ofDocument front ≠ .ok s' := by
  intro hfront
  obtain ⟨d, ⟨before, body, after, htext, hbefore, hbody, -⟩, -⟩ := ofDocument_eq_ok_iff.1 hfront
  have hread := topLevel_append (topLevel_eq_ok_iff.2 ⟨before, body, htext, hbefore, hbody⟩)
    back.toList
  have hwhole : topLevel (document s).toList = .ok (_, []) :=
    topLevel_eq_ok_iff.2 ⟨[], _, by simp, blanks_nil, Document.written s⟩
  rw [← String.toList_append, h, hwhole] at hread
  have hnil := (List.append_eq_nil_iff.1 (Prod.mk.inj (Except.ok.inj hread)).2.symm).2
  exact hback (String.toList_eq_nil_iff.1 hnil)

end Invitation.Settings
