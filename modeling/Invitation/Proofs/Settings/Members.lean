import Invitation.Proofs.Json.Values
import Invitation.Settings.Document

/-!
# The members of a document

An object is looked at as the list of its members, each a name and the text of a value, whatever
blanks stand between them and however the names are spelled.  What a draft holds is written in
numerals, at most one for a field, so that a list of members leads from one draft to another if for
each field the numerals of the first, followed by the values of the members, are the numerals of the
second (`Leads`).  This says at once that no field is given twice, that its value is a numeral, and
that unknown members do not matter.

The reader of an object stops behind those texts, and with those drafts, that are related in this
way (`object_eq_ok_iff`).
-/

namespace Invitation.Settings

open Json

/-! ## Numerals -/

/-- A numeral is a value. -/
lemma wellFormed_numeral (v : UInt64) : WellFormed .value (numeral v) := .number (spelled_numeral v)

/-- What is read as a number of 64 bits is its numeral, with blanks before it. -/
lemma exists_numeral_of_natural {cs rest : List Char} {v : UInt64}
    (h : natural cs = .ok (v, rest)) :
    ∃ before, cs = before ++ (numeral v ++ rest) ∧ Blanks before := by
  obtain ⟨before, hcs, hbefore⟩ := exists_blanks (rfl : skipBlank cs = skipBlank cs)
  unfold natural at h
  simp only at h
  split at h
  · cases h
  · next hnumber =>
    obtain ⟨text, htext, hspelled⟩ := exists_spelled_of_number hnumber
    split at h
    · next hv =>
      cases h
      rw [htext, eq_numeral hspelled hv] at hcs
      exact ⟨before, hcs, hbefore⟩
    · cases h

/-- A numeral is read as its number, with blanks before it. -/
lemma natural_append {before rest : List Char} (hbefore : Blanks before) (v : UInt64)
    (hrest : Delimited rest) : natural (before ++ (numeral v ++ rest)) = .ok (v, rest) := by
  unfold natural
  simp only [(wellFormed_numeral v).skipBlank_append hbefore,
    number_append (spelled_numeral v) hrest, toUInt64?_numeral]

/-! ## Members and drafts -/

/-- A member of an object: its name, and the text of its value. -/
@[ext]
structure Member where
  name : List Char
  value : List Char

/-- What stands for a member in an object. -/
inductive Member.Spelled (m : Member) : List Char → Prop
  | mk {key before after : List Char} (hkey : Key true m.name key) (hbefore : Blanks before)
      (hvalue : WellFormed .value m.value) (hafter : Blanks after) :
    Member.Spelled m (key ++ (before ++ (m.value ++ after)))

/-- The texts of the values that members of a given name have. -/
def given (ms : List Member) (name : String) : List (List Char) :=
  (ms.filter fun m => m.name = name.toList).map Member.value

/-- What a draft holds for a field, in numerals. -/
def Draft.held (d : Draft) (f : Field) : List (List Char) := ((d f).map numeral).toList

/-- The draft `e` holds what `d` holds and what the members give. -/
def Leads (d : Draft) (ms : List Member) (e : Draft) : Prop :=
  ∀ f : Field, d.held f ++ given ms f.name = e.held f

/-- What members give a name is what the first of them gives it, followed by the rest. -/
lemma given_cons (m : Member) (ms : List Member) (name : String) :
    given (m :: ms) name = given [m] name ++ given ms name := by
  simp only [given, ← List.map_append, ← List.filter_append, List.singleton_append]

/-- Numerals tell what a draft holds. -/
lemma Draft.eq_of_held {d e : Draft} {f : Field} (h : d.held f = e.held f) : d f = e f := by
  unfold Draft.held at h
  cases hd : d f with
  | none =>
    cases he : e f with
    | none => rfl
    | some w => simp [hd, he] at h
  | some v =>
    cases he : e f with
    | none => simp [hd, he] at h
    | some w =>
      rw [hd, he] at h
      exact congrArg some (numeral_injective (List.singleton_inj.1 h))

/-- A field is known by its name, to the letter. -/
lemma Field.named?_eq_some_iff {name : List Char} {f : Field} :
    Field.named? name = some f ↔ name = f.name.toList := by
  have hne : Field.codeLength.name.toList ≠ Field.lifetime.name.toList := by decide
  unfold Field.named?
  cases f <;> grind

/-- Members lead from nothing to what they give. -/
lemma leads_empty {ms : List Member} {d : Draft} :
    Leads .empty ms d ↔ ∀ f : Field, given ms f.name = d.held f := Iff.rfl

/-- Without members a draft stays as it is. -/
lemma leads_nil {d e : Draft} : Leads d [] e ↔ e = d := by
  constructor
  · intro h
    funext f
    exact (Draft.eq_of_held ((List.append_nil _).symm.trans (h f))).symm
  · rintro rfl f
    exact List.append_nil _

/-- A list of members leads on by one draft between each and the next. -/
lemma leads_cons {d e : Draft} {m : Member} {ms : List Member} :
    Leads d (m :: ms) e ↔ ∃ mid, Leads d [m] mid ∧ Leads mid ms e := by
  constructor
  · intro h
    -- What is given up to the second member is one numeral at most, as `e` holds no more.
    have hmid (f : Field) : ∃ v : Option UInt64,
        d.held f ++ given [m] f.name = (v.map numeral).toList := by
      have hf := h f
      rw [given_cons, ← List.append_assoc, Draft.held.eq_1 e] at hf
      cases hv : d.held f ++ given [m] f.name with
      | nil => exact ⟨none, rfl⟩
      | cons a as =>
        refine ⟨e f, ?_⟩
        cases he : e f with
        | none => simp [hv, he] at hf
        | some v => simp_all
    choose mid hmid using hmid
    refine ⟨mid, hmid, fun f => ?_⟩
    rw [← h f, given_cons, ← List.append_assoc, hmid f]
    rfl
  · rintro ⟨mid, hfirst, hrest⟩ f
    rw [given_cons, ← List.append_assoc, hfirst f, hrest f]

/-- A member gives its value to the field that it names, if it names one. -/
lemma given_singleton (m : Member) (f : Field) :
    given [m] f.name = if Field.named? m.name = some f then [m.value] else [] := by
  by_cases hname : m.name = f.name.toList
  · simp [given, Field.named?_eq_some_iff, hname]
  · simp [given, Field.named?_eq_some_iff, hname]

/-- An unknown member does not matter. -/
lemma leads_unknown {d e : Draft} {m : Member} (h : Field.named? m.name = none) :
    Leads d [m] e ↔ e = d := by
  have hgiven (f : Field) : given [m] f.name = given [] f.name := by
    rw [given_singleton, h]
    rfl
  rw [← leads_nil]
  simp only [Leads, hgiven]

/-- A known member gives a value to a field that has none. -/
lemma leads_known {d e : Draft} {m : Member} {f : Field} (h : Field.named? m.name = some f) :
    Leads d [m] e ↔ d f = none ∧ ∃ v, m.value = numeral v ∧ e = d.insert f v := by
  have hgiven : given [m] f.name = [m.value] := by
    rw [given_singleton, if_pos h]
  have hother {g : Field} (hg : g ≠ f) : given [m] g.name = [] := by
    rw [given_singleton, h, if_neg fun heq => hg (Option.some.inj heq).symm]
  constructor
  · intro hleads
    obtain ⟨hd, v, he, hv⟩ : d f = none ∧ ∃ v, e f = some v ∧ m.value = numeral v := by
      have hf := hleads f
      rw [hgiven, Draft.held, Draft.held] at hf
      cases hd : d f <;> cases he : e f <;> simp_all
    refine ⟨hd, v, hv, funext fun g => ?_⟩
    by_cases hg : g = f
    · rw [hg, he, Draft.insert, if_pos rfl]
    · have hheld := hleads g
      rw [hother hg, List.append_nil] at hheld
      rw [Draft.insert, if_neg hg, Draft.eq_of_held hheld]
  · rintro ⟨hd, v, hv, rfl⟩ g
    by_cases hg : g = f
    · simp [hg, hgiven, Draft.held, Draft.insert, hd, hv]
    · simp [hg, hother hg, Draft.held, Draft.insert]

/-! ## Reading members -/

/-- What is read as a member has a key and a value by the grammar, and leads to the draft that was
read. -/
lemma exists_spelled_of_member {d e : Draft} {cs rest : List Char}
    (h : member d cs = .ok (e, rest)) :
    ∃ (m : Member) (key before : List Char), cs = key ++ (before ++ (m.value ++ rest))
      ∧ Key true m.name key ∧ Blanks before ∧ WellFormed .value m.value ∧ Leads d [m] e := by
  unfold member at h
  split at h
  · cases h
  · next name mid hname =>
    split at h
    · next hunknown =>
      split at h
      · cases h
      · next hcolon =>
        split at h
        · cases h
        · next hvalue =>
          cases h
          obtain ⟨key, rfl, hkey⟩ := memberName_colon_iff.1 ⟨_, hname, hcolon⟩
          obtain ⟨before, value, rfl, hbefore, hwell⟩ := exists_wellFormed_of_skipValue hvalue
          exact ⟨⟨name, value⟩, key, before, rfl, hkey, hbefore, hwell,
            (leads_unknown hunknown).2 rfl⟩
    · next f hknown =>
      split at h
      · cases h
      · next hfirst =>
        split at h
        · cases h
        · next hcolon =>
          split at h
          · cases h
          · next v _ hvalue =>
            cases h
            obtain ⟨key, rfl, hkey⟩ := memberName_colon_iff.1 ⟨_, hname, hcolon⟩
            obtain ⟨before, rfl, hbefore⟩ := exists_numeral_of_natural hvalue
            exact ⟨⟨name, numeral v⟩, key, before, rfl, hkey, hbefore, wellFormed_numeral v,
              (leads_known hknown).2 ⟨Option.not_isSome_iff_eq_none.1 hfirst, v, rfl, rfl⟩⟩

/-- A member with a key and a value by the grammar is read, if it leads to a draft. -/
lemma member_append {d e : Draft} {m : Member} {key before rest : List Char}
    (hkey : Key true m.name key) (hbefore : Blanks before) (hvalue : WellFormed .value m.value)
    (hleads : Leads d [m] e) (hrest : Delimited rest) :
    member d (key ++ (before ++ (m.value ++ rest))) = .ok (e, rest) := by
  obtain ⟨mid, hname, hcolon⟩ := memberName_colon_iff.2
    ⟨key, (rfl : key ++ (before ++ (m.value ++ rest)) = _), hkey⟩
  unfold member
  cases hf : Field.named? m.name with
  | none =>
    obtain rfl := (leads_unknown hf).1 hleads
    simp only [hname, hf, hcolon, skipValue_append hbefore hvalue hrest]
  | some f =>
    obtain ⟨hfirst, v, hv, rfl⟩ := (leads_known hf).1 hleads
    rw [hv] at hcolon hname ⊢
    simp only [hname, hf, hfirst, hcolon, natural_append hbefore v hrest]
    rfl

/-- What is read as members up to the closing bracket are members by the grammar, and lead to the
draft that was read. -/
lemma exists_separated_of_members {d e : Draft} {cs rest : List Char}
    (h : members d cs = .ok (e, rest)) :
    ∃ ms text, cs = text ++ '}' :: rest ∧ Separated Member.Spelled ms text ∧ Leads d ms e := by
  fun_induction members d cs with
  | case1 | case2 | case5 => cases h
  | case3 d cs e mid hm rest' hb =>
    cases h
    obtain ⟨m, key, before, rfl, hkey, hbefore, hvalue, hleads⟩ := exists_spelled_of_member hm
    obtain ⟨after, rfl, hafter⟩ := exists_blanks hb
    exact ⟨[m], _, by simp, .last (.mk hkey hbefore hvalue hafter), hleads⟩
  | case4 d cs mid rest' hm rest'' hb _ ih =>
    obtain ⟨m, key, before, rfl, hkey, hbefore, hvalue, hfirst⟩ := exists_spelled_of_member hm
    obtain ⟨after, rfl, hafter⟩ := exists_blanks hb
    obtain ⟨ms, text, rfl, htext, hleads⟩ := ih h
    exact ⟨m :: ms, _, by simp, .cons (.mk hkey hbefore hvalue hafter) htext,
      leads_cons.2 ⟨_, hfirst, hleads⟩⟩

/-- Behind a member, its next character decides how the reader goes on. -/
lemma members_of_member {d e : Draft} {cs mid rest : List Char} {c : Char}
    (hm : member d cs = .ok (e, mid)) (hb : skipBlank mid = c :: rest) :
    members d cs =
      if c = '}' then .ok (e, rest) else if c = ',' then members e rest else .error .malformed := by
  rw [members]
  split
  · next hm' => rw [hm] at hm'; cases hm'
  · next hm' =>
    rw [hm] at hm'
    cases hm'
    split
    · next hb' => rw [hb] at hb'; cases hb'
    · next hb' => rw [hb] at hb'; cases hb'; rfl

/-- Members by the grammar are read up to the closing bracket, if they lead to a draft. -/
lemma members_append {ms : List Member} {text : List Char} (h : Separated Member.Spelled ms text)
    {d e : Draft} (hleads : Leads d ms e) (rest : List Char) :
    members d (text ++ '}' :: rest) = .ok (e, rest) := by
  induction h generalizing d with
  | last h =>
    obtain @⟨key, before, after, hkey, hbefore, hvalue, hafter⟩ := h
    simp only [List.append_assoc]
    rw [members_of_member
      (member_append hkey hbefore hvalue hleads (delimited_append_cons hafter (by decide) rest))
      (skipBlank_append_cons hafter (by decide) rest), if_pos rfl]
  | @cons m ms _ text h _ ih =>
    obtain @⟨key, before, after, hkey, hbefore, hvalue, hafter⟩ := h
    obtain ⟨mid, hfirst, hrest⟩ := leads_cons.1 hleads
    simp only [List.append_assoc, List.cons_append]
    rw [members_of_member
      (member_append hkey hbefore hvalue hfirst (delimited_append_cons hafter (by decide) _))
      (skipBlank_append_cons hafter (by decide) _), if_neg (by decide), if_pos rfl]
    exact ih hrest

/-- Members begin with a key. -/
lemma exists_key_of_separated {ms : List Member} {text : List Char}
    (h : Separated Member.Spelled ms text) :
    ∃ name key tail, text = key ++ tail ∧ Key true name key := by
  cases h with
  | last h =>
    obtain ⟨hkey⟩ := h
    exact ⟨_, _, _, rfl, hkey⟩
  | cons h =>
    obtain ⟨hkey⟩ := h
    exact ⟨_, _, _, List.append_assoc _ _ _, hkey⟩

/-- The reader of objects reads the objects whose known members are given once, as numerals. -/
theorem object_eq_ok_iff {d : Draft} {cs rest : List Char} :
    object cs = .ok (d, rest) ↔ ∃ ms body, '{' :: cs = body ++ rest
      ∧ Bracketed '{' '}' Member.Spelled ms body ∧ Leads .empty ms d := by
  constructor
  · intro h
    unfold object at h
    split at h
    · next hb =>
      cases h
      obtain ⟨blanks, rfl, hblanks⟩ := exists_blanks hb
      exact ⟨[], _, by simp, .empty hblanks, leads_nil.2 rfl⟩
    · obtain ⟨ms, text, rfl, htext, hleads⟩ := exists_separated_of_members h
      exact ⟨ms, _, by simp, .filled htext, hleads⟩
  · rintro ⟨ms, body, hcs, hbody, hleads⟩
    cases hbody with
    | @empty blanks hblanks =>
      obtain rfl : cs = blanks ++ '}' :: rest := by simpa using hcs
      rw [object, skipBlank_append_cons hblanks (by decide), leads_nil.1 hleads]
      rfl
    | @filled _ text htext =>
      obtain rfl : cs = text ++ '}' :: rest := by simpa using hcs
      obtain ⟨name, key, tail, rfl, hkey⟩ := exists_key_of_separated htext
      obtain ⟨tail', htail⟩ := skipBlank_key hkey
      rw [object]
      split
      · next hb =>
        rw [List.append_assoc, htail] at hb
        cases hb
      · exact members_append htext hleads rest

/-! ## Telling members apart -/

/-- A text begins with one member only. -/
lemma Member.Spelled.unique {m m' : Member} {cs cs' rest rest' : List Char} {c c' : Char}
    (h : m.Spelled cs) (h' : m'.Spelled cs') (hc : c ∈ [',', '}']) (hc' : c' ∈ [',', '}'])
    (heq : cs ++ c :: rest = cs' ++ c' :: rest') : m = m' ∧ c = c' ∧ rest = rest' := by
  have hend : ∀ d ∈ [',', '}'], d ∈ [',', ']', '}'] ∧ isBlank d = false :=
    List.forall_iff_forall_mem.1 (by decide)
  obtain @⟨key, before, after, hkey, hbefore, hvalue, hafter⟩ := h
  obtain @⟨key', before', after', hkey', hbefore', hvalue', hafter'⟩ := h'
  simp only [List.append_assoc] at heq
  -- The same name is read, and the same text behind the colon.
  obtain ⟨mid, hname, hcolon⟩ := memberName_colon_iff.2 ⟨key, heq.symm, hkey⟩
  obtain ⟨mid', hname', hcolon'⟩ := memberName_colon_iff.2 ⟨key', rfl, hkey'⟩
  obtain ⟨hnames, rfl⟩ := Prod.mk.inj (Except.ok.inj (hname.symm.trans hname'))
  have hbehind := Except.ok.inj (hcolon.symm.trans hcolon')
  -- The same value is passed over.
  have hskip := skipValue_append hbefore hvalue (delimited_append_cons hafter (hend c hc).1 rest)
  have hskip' := skipValue_append hbefore' hvalue'
    (delimited_append_cons hafter' (hend c' hc').1 rest')
  rw [hbehind] at hskip
  have hafters := Except.ok.inj (hskip.symm.trans hskip')
  have hvalues : m.value = m'.value := by
    have hblank := congrArg skipBlank hbehind
    rw [hvalue.skipBlank_append hbefore, hvalue'.skipBlank_append hbefore', hafters] at hblank
    exact List.append_cancel_right hblank
  have hrests := congrArg skipBlank hafters
  rw [skipBlank_append_cons hafter (hend c hc).2, skipBlank_append_cons hafter' (hend c' hc').2]
    at hrests
  obtain ⟨rfl, rfl⟩ := List.cons.inj hrests
  exact ⟨Member.ext hnames hvalues, rfl, rfl⟩

/-- A text that two lists of members spell up to the closing bracket is that of one list. -/
lemma eq_of_separated {ms ms' : List Member} {text text' rest rest' : List Char}
    (h : Separated Member.Spelled ms text) (h' : Separated Member.Spelled ms' text')
    (heq : text ++ '}' :: rest = text' ++ '}' :: rest') : ms = ms' := by
  induction h generalizing ms' text' with
  | last h =>
    cases h' with
    | last h' => rw [(h.unique h' (by decide) (by decide) heq).1]
    | cons h' =>
      rw [List.append_assoc, List.cons_append] at heq
      cases (h.unique h' (by decide) (by decide) heq).2.1
  | cons h _ ih =>
    rw [List.append_assoc, List.cons_append] at heq
    cases h' with
    | last h' => cases (h.unique h' (by decide) (by decide) heq).2.1
    | cons h' hrest' =>
      rw [List.append_assoc, List.cons_append] at heq
      obtain ⟨rfl, -, hrests⟩ := h.unique h' (by decide) (by decide) heq
      rw [ih hrest' hrests]

/-- No object is empty and has members. -/
lemma not_separated_of_blanks {ms : List Member} {text blanks rest rest' : List Char}
    (h : Separated Member.Spelled ms text) (hblanks : Blanks blanks) :
    blanks ++ '}' :: rest ≠ text ++ '}' :: rest' := by
  intro heq
  obtain ⟨name, key, tail, rfl, hkey⟩ := exists_key_of_separated h
  obtain ⟨tail', htail⟩ := skipBlank_key hkey
  have hskip := congrArg skipBlank heq
  rw [skipBlank_append_cons hblanks (by decide), List.append_assoc, htail] at hskip
  cases hskip

/-- The members of an object are told by its text, with whatever follows it. -/
theorem eq_of_bracketed {ms ms' : List Member} {cs cs' rest rest' : List Char}
    (h : Bracketed '{' '}' Member.Spelled ms cs) (h' : Bracketed '{' '}' Member.Spelled ms' cs')
    (heq : cs ++ rest = cs' ++ rest') : ms = ms' := by
  cases h with
  | empty h =>
    cases h' with
    | empty => rfl
    | filled h' => exact absurd (by simpa using heq) (not_separated_of_blanks h' h)
  | filled h =>
    cases h' with
    | empty h' => exact absurd (by simpa using heq.symm) (not_separated_of_blanks h h')
    | filled h' => exact eq_of_separated h h' (by simpa using heq)

end Invitation.Settings
