import Invitation.Json.Value
import Invitation.Settings.Basic

/-!
# Settings as a JSON document

Settings are written as an object with two members, whole seconds and a length. Reading takes the
members in any order, takes the usual settings for those that are missing, and passes over members
that it does not know; it also takes an array with the two values in order. Nanoseconds are not
written, and a length is taken as it stands.
-/

namespace Invitation.Settings

open Json (Fault Reading)

/-- The members of the document. -/
inductive Field
  | lifetime
  | codeLength
  deriving DecidableEq

/-- The name of a member. -/
def Field.name : Field → String
  | .lifetime => "ttl_secs"
  | .codeLength => "short_code_length"

/-- The member of a given name. -/
def Field.named? (name : List Char) : Option Field :=
  if name = Field.lifetime.name.toList then some .lifetime
  else if name = Field.codeLength.name.toList then some .codeLength
  else none

/-! ## Writing -/

/-- The document of settings. -/
def document (s : Settings) : String :=
  s!"\x7b\"{Field.lifetime.name}\":{s.lifetime.seconds},"
    ++ s!"\"{Field.codeLength.name}\":{s.codeLength}\x7d"

/-! ## Reading -/

/-- The values of the members that have been read. -/
abbrev Draft := Field → Option UInt64

namespace Draft

/-- No member has been read. -/
def empty : Draft := fun _ => none

/-- One more member. -/
def insert (d : Draft) (field : Field) (value : UInt64) : Draft :=
  fun f => if f = field then some value else d f

/-- The settings that a document means. -/
def settings (d : Draft) : Settings where
  lifetime := .ofSeconds ((d .lifetime).getD usualSeconds)
  codeLength := (d .codeLength).getD usualCodeLength

end Draft

/-- The fault of a value that is of the wrong kind; it is read as far as is needed to tell its
kind, and a fault inside it comes first. -/
def misfit (cs : List Char) : Fault :=
  match cs with
  | [] => .truncated
  | c :: _ =>
    if c = '[' ∨ c = '{' then .unfit
    else
      match Json.leaf true cs with
      | .error f => f
      | .ok _ => .unfit

/-- The value of a member. -/
def natural (cs : List Char) : Reading UInt64 :=
  let cs := Json.skipBlank cs
  match Json.number cs with
  | .error _ => .error (misfit cs)
  | .ok (n, rest) =>
    match n.toUInt64? with
    | some value => .ok (value, rest)
    | none => .error (misfit cs)

/-- One member, added to those that have been read. A known name may come once; the second time is
a fault before its value is looked at. -/
def member (d : Draft) (cs : List Char) : Reading Draft :=
  match Json.memberName true cs with
  | .error f => .error f
  | .ok (name, rest) =>
    match Field.named? name with
    | none =>
      match Json.colon rest with
      | .error f => .error f
      | .ok rest =>
        match Json.skipValue rest with
        | .error f => .error f
        | .ok rest => .ok (d, rest)
    | some field =>
      if (d field).isSome then .error .unfit
      else
        match Json.colon rest with
        | .error f => .error f
        | .ok rest =>
          match natural rest with
          | .error f => .error f
          | .ok (value, rest) => .ok (d.insert field value, rest)

/-- A number of 64 bits takes characters. -/
theorem lt_of_natural {cs rest : List Char} {v : UInt64} (h : natural cs = .ok (v, rest)) :
    rest.length < cs.length := by
  unfold natural at h
  simp only at h
  split at h
  · cases h
  · next hn =>
    split at h
    · cases h
      have := Json.lt_of_number hn
      have := Json.length_skipBlank_le cs
      omega
    · cases h

/-- A member takes characters, so that the members behind it are a shorter text. -/
theorem lt_of_member {d e : Draft} {cs rest : List Char} (h : member d cs = .ok (e, rest)) :
    rest.length < cs.length := by
  unfold member at h
  split at h
  · cases h
  · next hm =>
    have := Json.lt_of_memberName hm
    split at h
    · split at h
      · cases h
      · next hc =>
        have := Json.lt_of_colon hc
        split at h
        · cases h
        · next hv =>
          cases h
          have := Json.lt_of_skipValue hv
          omega
    · split at h
      · cases h
      · split at h
        · cases h
        · next hc =>
          have := Json.lt_of_colon hc
          split at h
          · cases h
          · next hv =>
            cases h
            have := lt_of_natural hv
            omega

/-- One member or more, up to the closing bracket. -/
def members (d : Draft) (cs : List Char) : Reading Draft :=
  match _hm : member d cs with
  | .error f => .error f
  | .ok (e, rest) =>
    match _hb : Json.skipBlank rest with
    | [] => .error .truncated
    | c :: rest =>
      if c = '}' then .ok (e, rest)
      else if c = ',' then members e rest
      else .error .malformed
termination_by cs.length
decreasing_by
  have := lt_of_member _hm
  have := Json.length_skipBlank_cons_le _hb
  omega

/-- The members of an object, read behind its opening bracket. -/
def object (cs : List Char) : Reading Draft :=
  match Json.skipBlank cs with
  | '}' :: rest => .ok (.empty, rest)
  | _ => members .empty cs

/-- The closing bracket of an array that can hold no more values. -/
def arrayEnd (cs : List Char) : Except Fault (List Char) :=
  match Json.skipBlank cs with
  | [] => .error .truncated
  | c :: rest => if c = ']' then .ok rest else .error .malformed

/-- The values of an array, read behind its opening bracket. -/
def array (cs : List Char) : Reading Draft :=
  match Json.skipBlank cs with
  | ']' :: rest => .ok (.empty, rest)
  | _ =>
    match natural cs with
    | .error f => .error f
    | .ok (seconds, rest) =>
      let d := Draft.empty.insert .lifetime seconds
      match Json.skipBlank rest with
      | ',' :: rest =>
        match natural rest with
        | .error f => .error f
        | .ok (length, rest) =>
          match arrayEnd rest with
          | .error f => .error f
          | .ok rest => .ok (d.insert .codeLength length, rest)
      | rest =>
        match arrayEnd rest with
        | .error f => .error f
        | .ok rest => .ok (d, rest)

/-- The value that a document consists of. -/
def topLevel (cs : List Char) : Reading Draft :=
  match Json.skipBlank cs with
  | '{' :: rest => object rest
  | '[' :: rest => array rest
  | cs => .error (misfit cs)

/-- The settings that a document means. Only blanks may follow its value. -/
def ofDocument (text : String) : Except Fault Settings :=
  match topLevel text.toList with
  | .error f => .error f
  | .ok (d, rest) => if Json.skipBlank rest = [] then .ok d.settings else .error .malformed

end Invitation.Settings
