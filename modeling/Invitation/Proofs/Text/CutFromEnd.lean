import Invitation.Proofs.Text.Boundary

/-!
# Cutting from the end

`Text.cut` counts characters from the front of a text.  Its cut can be found from the other end too,
by looking at bytes alone: stand where the budget ends and step back while the byte there goes on
with a character (`Utf8.lastBoundary?`).  Nothing but a boundary ends this search.  That it meets
one before it steps past the front, and after three steps at most, is due to what texts look like:
the front is a boundary, and no character takes more than four bytes.  It stops where the cut is
(`lastBoundary?_encode`), as all that it steps over lies inside one character.

So there is one cut, however it is found, and it has the laws of a longest beginning that fits: to
cut again changes nothing, and of two cuts only the narrower one counts
(`cutFromEnd_finds_longestFit`).
-/

namespace Invitation

namespace Utf8

/-- Whether a byte goes on with a character that an earlier byte begins. -/
def continues (b : UInt8) : Bool := decide (0x80 ≤ b ∧ b < 0xc0)

/-- Whether a character begins at an offset, or the last one ends there, as the bytes show it. -/
def isBoundary (b : Bytes) (n : Nat) : Bool :=
  n == 0 || n == b.length || b[n]?.any fun x => !continues x

/-- The first boundary on the way back from an offset, or nothing if the search steps past the
front. -/
def lastBoundary? (b : Bytes) : Nat → Option Nat
  | 0 => if isBoundary b 0 then some 0 else none
  | n + 1 => if isBoundary b (n + 1) then some (n + 1) else lastBoundary? b n

/-! ## The bytes of a character -/

/-- The low byte of a number continues a character exactly if it lies in the middle range. -/
lemma continues_ofNat (n : Nat) :
    continues (UInt8.ofNat n) = true ↔ 0x80 ≤ n % 256 ∧ n % 256 < 0xc0 := by
  rw [continues, decide_eq_true_iff, UInt8.le_iff_toNat_le, UInt8.lt_iff_toNat_lt,
    UInt8.toNat_ofNat']
  exact Iff.rfl

/-- The byte that carries six bits of a character. -/
def sixBits (n : Nat) : UInt8 := UInt8.ofNat (n % 0x40 + 0x80)

/-- Six bits of a character are written as a byte that continues one. -/
lemma continues_sixBits (n : Nat) : continues (sixBits n) = true := by
  rw [sixBits, continues_ofNat]
  omega

/-- Behind the first byte of a character all bytes carry six bits. -/
lemma exists_utf8EncodeChar_eq_ofNat_cons (c : Char) :
    ∃ (n : Nat) (bits : List Nat), String.utf8EncodeChar c = UInt8.ofNat n :: bits.map sixBits
      ∧ ¬ (0x80 ≤ n % 256 ∧ n % 256 < 0xc0) := by
  fun_cases String.utf8EncodeChar c with
  | case1 v hone => exact ⟨v, [], rfl, by omega⟩
  | case2 v _ htwo => exact ⟨v / 64 % 0x20 + 0xc0, [v], rfl, by omega⟩
  | case3 v _ _ hthree => exact ⟨v / 4096 % 0x10 + 0xe0, [v / 64, v], rfl, by omega⟩
  | case4 v _ _ hfour => exact ⟨v / 262144 % 0x08 + 0xf0, [v / 4096, v / 64, v], rfl, by omega⟩

/-- Of the bytes of a character all but the first go on with it. -/
lemma exists_utf8EncodeChar_eq_cons (c : Char) :
    ∃ (first : UInt8) (rest : Bytes), String.utf8EncodeChar c = first :: rest
      ∧ ¬ continues first = true ∧ ∀ x ∈ rest, continues x = true := by
  obtain ⟨n, bits, hc, hn⟩ := exists_utf8EncodeChar_eq_ofNat_cons c
  refine ⟨UInt8.ofNat n, bits.map sixBits, hc, mt (continues_ofNat n).1 hn, ?_⟩
  intro x hx
  obtain ⟨m, -, rfl⟩ := List.mem_map.1 hx
  exact continues_sixBits m

/-- The form of a text shows each character between the forms of what stands before and behind. -/
lemma encode_of_toList {text : String} {front back : List Char} {c : Char}
    (h : text.toList = front ++ c :: back) :
    encode text = encode (String.ofList front)
      ++ (String.utf8EncodeChar c ++ encode (String.ofList back)) := by
  rw [← String.ofList_toList (s := text), h, encode_ofList, encode_ofList, encode_ofList,
    List.flatMap_append, List.flatMap_cons]

/-! ## Boundaries -/

/-- An offset behind the front, with a byte at it, is a boundary unless that byte goes on with a
character. -/
lemma isBoundary_length_append (front back : Bytes) (x : UInt8) :
    isBoundary (front ++ x :: back) front.length = true ↔ front = [] ∨ ¬ continues x = true := by
  have hend : front.length ≠ (front ++ x :: back).length := by
    rw [List.length_append, List.length_cons]
    omega
  have hbyte : (front ++ x :: back)[front.length]? = some x := by
    rw [List.getElem?_append_right (le_refl _), Nat.sub_self, List.getElem?_cons_zero]
  simp only [isBoundary, hbyte, Option.any_some, Bool.or_eq_true, beq_iff_eq, hend, or_false,
    List.length_eq_zero_iff, Bool.not_eq_true', Bool.not_eq_true]

/-- Where one text ends and another begins, there is a boundary. -/
lemma isBoundary_encode_append (u v : String) :
    isBoundary (encode (u ++ v)) (encode u).length = true := by
  rcases hv : v.toList with _ | ⟨c, cs⟩
  · obtain rfl : v = "" := String.toList_eq_nil_iff.1 hv
    simp [isBoundary]
  · obtain ⟨first, rest, hc, hfirst, -⟩ := exists_utf8EncodeChar_eq_cons c
    have hfront : v.toList = [] ++ c :: cs := hv
    have hbytes : encode v = first :: (rest ++ encode (String.ofList cs)) := by
      rw [encode_of_toList hfront, hc]
      rfl
    rw [encode_append, hbytes, isBoundary_length_append]
    exact .inr hfirst

/-- Inside a character there is none. -/
lemma not_isBoundary_of_splits {n : Nat} {text : String} (h : Text.Splits n text) :
    ¬ isBoundary (encode text) n = true := by
  obtain ⟨front, back, c, htext, hlow, hhigh⟩ := h
  obtain ⟨first, rest, hc, -, hrest⟩ := exists_utf8EncodeChar_eq_cons c
  rw [← Text.length_encode_ofList] at hlow hhigh
  rw [← String.length_utf8EncodeChar, hc, List.length_cons] at hhigh
  obtain ⟨k, hk⟩ : ∃ k, n = (encode (String.ofList front)).length + (k + 1) :=
    Nat.exists_eq_add_of_lt hlow
  -- the byte at the offset is one of the others of the character
  obtain ⟨before, x, behind, rfl, hbefore⟩ :
      ∃ before x behind, rest = before ++ x :: behind ∧ before.length = k := by
    have hlt : k < rest.length := by omega
    refine ⟨rest.take k, rest[k], rest.drop (k + 1), ?_, List.length_take_of_le hlt.le⟩
    rw [← List.drop_eq_getElem_cons hlt, List.take_append_drop]
  have hbytes : encode text = (encode (String.ofList front) ++ first :: before)
      ++ x :: (behind ++ encode (String.ofList back)) := by
    rw [encode_of_toList htext, hc]
    simp only [List.append_assoc, List.cons_append]
  have hoffset : n = (encode (String.ofList front) ++ first :: before).length := by
    rw [List.length_append, List.length_cons, hbefore, hk]
  rw [hbytes, hoffset, isBoundary_length_append, not_or, not_not]
  exact ⟨by simp, hrest x (List.mem_append_right _ List.mem_cons_self)⟩

/-- The boundaries of a text are the places where it divides into two. -/
lemma isBoundary_encode_iff {n : Nat} {text : String} (h : n ≤ (encode text).length) :
    isBoundary (encode text) n = true ↔ ∃ u v : String, text = u ++ v ∧ (encode u).length = n := by
  constructor
  · intro hn
    rcases Text.splits_or_exists_eq_append h with hsplits | hdivides
    · exact absurd hn (not_isBoundary_of_splits hsplits)
    · exact hdivides
  · rintro ⟨u, v, rfl, rfl⟩
    exact isBoundary_encode_append u v

/-! ## The search -/

/-- The search finds a boundary if it steps over none on the way. -/
lemma lastBoundary?_eq_some {b : Bytes} {n k : Nat} (hle : k ≤ n) (hk : isBoundary b k = true)
    (hnone : ∀ j, k < j → j ≤ n → ¬ isBoundary b j = true) : lastBoundary? b n = some k := by
  induction n with
  | zero =>
    obtain rfl : k = 0 := Nat.le_zero.1 hle
    rw [lastBoundary?, if_pos hk]
  | succ n ih =>
    rcases Nat.eq_or_lt_of_le hle with rfl | hlt
    · rw [lastBoundary?, if_pos hk]
    · rw [lastBoundary?, if_neg (hnone _ hlt (le_refl _))]
      exact ih (Nat.le_of_lt_succ hlt) fun j hj hjn => hnone j hj (Nat.le_succ_of_le hjn)

end Utf8

namespace Text

/-- The bytes that are left of a text if it is cut at the last boundary within its first `max`
bytes, looked for from their end; nothing if the search steps past the front. -/
def cutFromEnd? (max : Nat) (s : String) : Option Bytes :=
  let b := Utf8.encode s
  if b.length ≤ max then some b else (Utf8.lastBoundary? b max).map b.take

/-- A cut divides a text into two. -/
lemma exists_eq_cut_append (max : Nat) (s : String) : ∃ rest, s = cut max s ++ rest := by
  obtain ⟨rest, hrest⟩ := encode_begins_iff.1 (longestFit_cut max s).begins
  refine ⟨String.ofList rest, ?_⟩
  apply String.toList_inj.1
  rw [String.toList_append, String.toList_ofList, hrest]

/-- The search from the end of the budget stops where the cut is. -/
lemma lastBoundary?_encode {max : Nat} {s : String} (h : max < (Utf8.encode s).length) :
    Utf8.lastBoundary? (Utf8.encode s) max = some (Utf8.encode (cut max s)).length := by
  have hcut := longestFit_cut max s
  apply Utf8.lastBoundary?_eq_some hcut.fits
  · obtain ⟨rest, hs⟩ := exists_eq_cut_append max s
    exact (Utf8.isBoundary_encode_iff (hcut.fits.trans h.le)).2 ⟨_, rest, hs, rfl⟩
  · intro j hlow hhigh hj
    -- a boundary would end a longer beginning that fits
    obtain ⟨u, v, rfl, rfl⟩ := (Utf8.isBoundary_encode_iff (hhigh.trans h.le)).1 hj
    have hlongest := hcut.longest u (Utf8.encode_prefix_append u v) hhigh
    exact absurd hlongest (Nat.not_le_of_lt hlow)

/-- The search from the end finds the cut and does not step past the front. -/
lemma cutFromEnd?_eq_cut (max : Nat) (s : String) :
    cutFromEnd? max s = some (Utf8.encode (cut max s)) := by
  by_cases h : (Utf8.encode s).length ≤ max
  · rw [cutFromEnd?, if_pos h, cut_eq_self h]
  · rw [cutFromEnd?, if_neg h, lastBoundary?_encode (Nat.lt_of_not_le h), Option.map_some,
      ← List.prefix_iff_eq_take.1 (longestFit_cut max s).begins]

/-- A text that is cut loses three bytes of the budget at most. -/
lemma le_length_cut_add {max : Nat} {s : String} (h : max < (Utf8.encode s).length) :
    max ≤ (Utf8.encode (cut max s)).length + 3 := by
  have hsize := h.le
  rw [length_encode_eq_sum] at hsize
  -- the characters that end within the budget, and the one that the budget ends in
  obtain ⟨front, back, hs, hcut⟩ := exists_front max s.toList hsize
  have hlen := length_encode_ofList front
  have hbegins : Utf8.encode (String.ofList front) <+: Utf8.encode s := by
    rw [encode_begins_iff, String.toList_ofList, hs]
    exact List.prefix_append _ _
  have hlongest := (longestFit_cut max s).longest (String.ofList front) hbegins
  rcases hcut with hwhole | ⟨c, rest, -, hlow, hhigh⟩
  · have := hlongest (by omega)
    omega
  · have := hlongest (by omega)
    have := c.utf8Size_le_four
    omega

/-- Cutting a text twice is cutting it once, to the smaller of the two sizes. -/
lemma cut_cut (m n : Nat) (s : String) : cut m (cut n s) = cut (min m n) s := by
  have hn := longestFit_cut n s
  have hm := longestFit_cut m (cut n s)
  have hboth : LongestFit (min m n) s (cut m (cut n s)) := by
    refine ⟨hm.begins.trans hn.begins, le_min hm.fits ?_, ?_⟩
    · exact hm.begins.length_le.trans hn.fits
    · intro u hu hfits
      have hlen := hn.longest u hu (hfits.trans (min_le_right _ _))
      have hcut : Utf8.encode u <+: Utf8.encode (cut n s) :=
        List.prefix_of_prefix_length_le hu hn.begins hlen
      exact hm.longest u hcut (hfits.trans (min_le_left _ _))
  exact hboth.eq_cut

/-! ## The cut -/

/-- The search from the end comes to a stop and finds the cut, which is the longest beginning of the
text that fits: all of the text if that fits, otherwise one that leaves three bytes of the budget at
most, as every longer beginning is beyond it.  Cutting to the same size again changes nothing, and
cutting to two sizes in turn is cutting to the smaller one. -/
theorem cutFromEnd_finds_longestFit (max : Nat) (s : String) :
    cutFromEnd? max s = some (Utf8.encode (cut max s))
    ∧ LongestFit max s (cut max s)
    ∧ ((Utf8.encode s).length ≤ max → cut max s = s)
    ∧ (max < (Utf8.encode s).length → max - 3 ≤ (Utf8.encode (cut max s)).length)
    ∧ (∀ u v : String, s = u ++ v →
        (Utf8.encode (cut max s)).length < (Utf8.encode u).length → max < (Utf8.encode u).length)
    ∧ cut max (cut max s) = cut max s
    ∧ ∀ n : Nat, cut max (cut n s) = cut (min max n) s := by
  refine ⟨cutFromEnd?_eq_cut max s, longestFit_cut max s, cut_eq_self, ?_, ?_, ?_, ?_⟩
  · intro h
    exact Nat.sub_le_of_le_add (le_length_cut_add h)
  · rintro u v rfl hlonger
    by_contra hfits
    have hlongest := (longestFit_cut max (u ++ v)).longest u (Utf8.encode_prefix_append u v)
      (Nat.le_of_not_lt hfits)
    exact absurd hlongest (Nat.not_le_of_lt hlonger)
  · rw [cut_cut, min_self]
  · intro n
    exact cut_cut max n s

/-- A budget that ends behind the third byte of a character leaves these three; with one byte more
the text is whole. -/
theorem cutFromEnd_leaves_three_bytes :
    7 < (Utf8.encode "añb👋").length
      ∧ cutFromEnd? 7 "añb👋" = some (Utf8.encode "añb")
      ∧ 7 - 3 ≤ (Utf8.encode (cut 7 "añb👋")).length
      ∧ (Utf8.encode "añb👋").length ≤ 8 ∧ cut 8 "añb👋" = "añb👋" := by
  have hover : 7 < (Utf8.encode "añb👋").length := by decide
  have hfits : (Utf8.encode "añb👋").length ≤ 8 := by decide
  have hcut : cut 7 "añb👋" = "añb" := by decide
  obtain ⟨hsearch, -, -, hleft, -⟩ := cutFromEnd_finds_longestFit 7 "añb👋"
  obtain ⟨-, -, hself, -⟩ := cutFromEnd_finds_longestFit 8 "añb👋"
  rw [hcut] at hsearch
  exact ⟨hover, hsearch, hleft hover, hfits, hself hfits⟩

end Text

end Invitation
