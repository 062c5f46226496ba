import Mathlib.Data.List.TakeWhile
import ShowControl.Address.Ip
import ShowControl.Proofs.Text.Digits

/-!
# Addresses read back

The text of an address is read as that address (`IpAddress.parse?_text`), over all of both families.

An address of the second family may have been written in two ways. Where it holds one of the first
family, the text ends in decimal numbers, and these are taken for the last two groups. Everywhere
else the text has no point, so that no decimal number is found in it; its groups are read up to the
two colons that stand for zeros, and behind them (`groups_groupsText`). What was left out is a run
of zeros (`exists_longestZeros`), and as many are put in its place as there are too few groups.
-/

namespace ShowControl.IpAddress

open Text

/-! ### Decimal numbers -/

theorem octet?_append {n : ℕ} (small : n < 256) {rest : List Char}
    (other : ∀ c ∈ rest.head?, c.isDigit = false) :
    octet? (decimal n ++ rest) = some (n, rest) := by
  have digits : ∀ c ∈ decimal n, c.isDigit = true := fun c ↦ isDigit_of_mem_toDigits
  obtain ⟨taken, left⟩ := splits_of_head digits other
  have few : (decimal n).length ≤ 3 :=
    (Nat.length_toDigits_le_iff (by decide) (by decide)).2 (by omega)
  have value : Nat.ofDigitChars 10 (decimal n) 0 = n := Nat.ofDigitChars_ten_toDigits
  have fault : ¬((decimal n).isEmpty ∨ 3 < (decimal n).length ∨
      (1 < (decimal n).length ∧ (decimal n).head? = some '0')) := by
    rintro (empty | many | lead)
    · exact Nat.toDigits_ne_nil (List.isEmpty_iff.1 empty)
    · omega
    · exact toDigits_lead n lead
  rw [octet?]
  dsimp only
  rw [taken, left, if_neg fault, value, if_neg (by omega)]

theorem quad?_quadText {a b c d : ℕ} (smallA : a < 256) (smallB : b < 256) (smallC : c < 256)
    (smallD : d < 256) : quad? (quadText a b c d) = some ((a, b, c, d), []) := by
  have point (text : List Char) : ∀ e ∈ ('.' :: text).head?, e.isDigit = false := by
    rintro _ ⟨⟩
    rfl
  have last : octet? (decimal d ++ []) = some (d, []) := octet?_append smallD nofun
  rw [List.append_nil] at last
  simp only [quad?, quadText, List.append_assoc, List.cons_append, octet?_append smallA (point _),
    octet?_append smallB (point _), octet?_append smallC (point _), last, skip?, if_true,
    Option.bind_eq_bind, Option.bind_some, Option.pure_def]

theorem skip?_of_not_mem {c : Char} {text : List Char} (absent : c ∉ text) :
    skip? c text = none := by
  rcases text with _ | ⟨first, rest⟩
  · rfl
  · rw [skip?, if_neg]
    rintro rfl
    exact absent List.mem_cons_self

/-- Without a point there are no four decimal numbers. -/
theorem quad?_of_not_mem {text : List Char} (absent : '.' ∉ text) : quad? text = none := by
  rw [quad?]
  rcases first : octet? text with _ | ⟨a, rest⟩
  · rfl
  · -- what is behind the first number is a part of the text
    have behind : rest = text.dropWhile Char.isDigit := by
      rw [octet?] at first
      dsimp only at first
      split at first
      · cases first
      · split at first
        · cases first
        · cases first
          rfl
    have absent' : '.' ∉ rest := by
      rw [behind]
      exact fun point ↦ absent ((List.dropWhile_suffix _).mem point)
    show (skip? '.' rest).bind _ = none
    rw [skip?_of_not_mem absent']
    rfl

/-! ### Groups -/

theorem hexValue?_digitChar {d : ℕ} (small : d < 16) : hexValue? d.digitChar = some d := by
  have all : ∀ d : Fin 16, hexValue? d.val.digitChar = some d.val := by decide
  exact all ⟨d, small⟩

/-- The digits of a group are hexadecimal, and they come to the group. -/
theorem hexadecimal (n : ℕ) :
    (∀ c ∈ Nat.toDigits 16 n, (hexValue? c).isSome = true) ∧
      (Nat.toDigits 16 n).foldl (fun value c ↦ value * 16 + (hexValue? c).getD 0) 0 = n := by
  -- a number is written as its quotient by the base, and the remainder behind it
  induction n using Nat.strongRecOn with
  | _ n ih =>
    rcases Nat.lt_or_ge n 16 with single | more
    · rw [Nat.toDigits_of_lt_base single, List.forall_mem_singleton, List.foldl_cons,
        List.foldl_nil, hexValue?_digitChar single]
      simp
    · obtain ⟨digits, value⟩ := ih (n / 16) (by omega)
      have last := hexValue?_digitChar (Nat.mod_lt n (by decide : 0 < 16))
      rw [Nat.toDigits_of_base_le (by decide) more, List.forall_mem_append,
        List.forall_mem_singleton, List.foldl_append, value, List.foldl_cons, List.foldl_nil, last]
      refine ⟨⟨digits, rfl⟩, ?_⟩
      rw [Option.getD_some]
      omega

theorem group?_append {n : ℕ} (small : n < 65536) {rest : List Char}
    (other : ∀ c ∈ rest.head?, (hexValue? c).isSome = false) :
    group? (Nat.toDigits 16 n ++ rest) = some (n, rest) := by
  obtain ⟨digits, value⟩ := hexadecimal n
  have few : (Nat.toDigits 16 n).length ≤ 4 :=
    (Nat.length_toDigits_le_iff (by decide) (by decide)).2 (by omega)
  have fault : ¬((Nat.toDigits 16 n).isEmpty ∨ 4 < (Nat.toDigits 16 n).length) := by
    rintro (empty | many)
    · exact Nat.toDigits_ne_nil (List.isEmpty_iff.1 empty)
    · omega
  rw [group?, (splits_of_head digits other).1, if_neg fault, value, List.drop_left]

/-- No group begins here. -/
theorem group?_of_head {text : List Char} (other : ∀ c ∈ text.head?, (hexValue? c).isSome = false) :
    group? text = none := by
  rcases text with _ | ⟨c, text⟩
  · rfl
  · have nothing : (c :: text).takeWhile (fun c ↦ (hexValue? c).isSome) = [] :=
      List.takeWhile_cons_of_neg (by simp [other c rfl])
    rw [group?, nothing]
    rfl

/-- Each of the groups with a colon in front of it. -/
def behindColons (gs : List ℕ) : List Char := gs.flatMap fun group ↦ ':' :: Nat.toDigits 16 group

theorem groupsText_cons (group : ℕ) (gs : List ℕ) :
    groupsText (group :: gs) = Nat.toDigits 16 group ++ behindColons gs := by
  induction gs generalizing group with
  | nil => exact (List.append_nil _).symm
  | cons next gs ih =>
    show Nat.toDigits 16 group ++ ':' :: groupsText (next :: gs) = _
    rw [ih]
    rfl

/-- The character may stand in a text of groups. -/
def isGroupPart (c : Char) : Bool := (hexValue? c).isSome || c = ':'

theorem isGroupPart_toDigits (n : ℕ) : ∀ c ∈ Nat.toDigits 16 n, isGroupPart c = true := by
  intro c digit
  simp [isGroupPart, (hexadecimal n).1 c digit]

theorem isGroupPart_behindColons (gs : List ℕ) : ∀ c ∈ behindColons gs, isGroupPart c = true := by
  intro c here
  obtain ⟨group, -, here⟩ := List.mem_flatMap.1 here
  rcases List.mem_cons.1 here with rfl | digit
  · rfl
  · exact isGroupPart_toDigits group c digit

theorem isGroupPart_groupsText (gs : List ℕ) : ∀ c ∈ groupsText gs, isGroupPart c = true := by
  rcases gs with _ | ⟨group, gs⟩
  · exact List.forall_mem_nil _
  · rw [groupsText_cons, List.forall_mem_append]
    exact ⟨isGroupPart_toDigits group, isGroupPart_behindColons gs⟩

theorem isGroupPart_compressedText (gs : List ℕ) :
    ∀ c ∈ compressedText gs, isGroupPart c = true := by
  rw [compressedText]
  dsimp only
  split
  · rw [List.forall_mem_append, List.forall_mem_cons, List.forall_mem_cons]
    exact ⟨isGroupPart_groupsText _, rfl, rfl, isGroupPart_groupsText _⟩
  · exact isGroupPart_groupsText gs

/-- There is no point in a text of groups. -/
theorem point_not_mem {text : List Char} (parts : ∀ c ∈ text, isGroupPart c = true) :
    '.' ∉ text := fun point ↦ absurd (parts _ point) (by decide)

/-- What may follow groups: no digit, and no point anywhere. -/
structure Closes (rest : List Char) : Prop where
  head : ∀ c ∈ rest.head?, (hexValue? c).isSome = false
  absent : '.' ∉ rest

theorem Closes.behindColons {rest : List Char} (h : Closes rest) (gs : List ℕ) :
    Closes (behindColons gs ++ rest) := by
  refine ⟨?_, ?_⟩
  · rcases gs with _ | ⟨group, gs⟩
    · exact h.head
    · rintro _ ⟨⟩
      rfl
  · rw [List.mem_append]
    exact not_or.2 ⟨point_not_mem (isGroupPart_behindColons gs), h.absent⟩

theorem Closes.noQuad {rest : List Char} (h : Closes rest) (group : ℕ) :
    quad? (Nat.toDigits 16 group ++ rest) = none := by
  refine quad?_of_not_mem ?_
  rw [List.mem_append]
  exact not_or.2 ⟨point_not_mem (isGroupPart_toDigits group), h.absent⟩

/-- One more group, in front of which a colon has been taken or none is needed. -/
theorem groups_group (first : Bool) (text : List Char) {limit group : ℕ} {taken rest : List Char}
    (front : (if first then some text else skip? ':' text) = some taken)
    (noQuad : quad? taken = none) (one : group? taken = some (group, rest)) :
    groups first (limit + 1) text =
      (group :: (groups false limit rest).1, (groups false limit rest).2) := by
  rw [groups, front]
  dsimp only
  rw [noQuad, ite_self]
  dsimp only
  rw [one]

/-- The last two groups in decimal. -/
theorem groups_quad (first : Bool) (text : List Char) (limit : ℕ) {a b c d : ℕ}
    {numbers rest : List Char}
    (front : (if first then some text else skip? ':' text) = some numbers)
    (quad : quad? numbers = some ((a, b, c, d), rest)) :
    groups first (limit + 2) text = ([a * 256 + b, c * 256 + d], true, rest) := by
  rw [groups, front]
  dsimp only
  rw [if_pos (Nat.succ_pos limit), quad]

/-- Where there is no group there are none at all. -/
theorem groups_of_none (first : Bool) (limit : ℕ) (text : List Char) {rest : List Char}
    (front : (if first then some text else skip? ':' text) = some rest) (noQuad : quad? rest = none)
    (noGroup : group? rest = none) : groups first limit text = ([], false, text) := by
  rcases limit with _ | limit
  · rfl
  · rw [groups, front]
    dsimp only
    rw [noQuad, ite_self]
    dsimp only
    rw [noGroup]

/-- The end of a text ends groups. -/
theorem groups_nil (first : Bool) (limit : ℕ) : groups first limit [] = ([], false, []) := by
  rcases first with _ | _
  · rcases limit with _ | limit <;> rfl
  · exact groups_of_none true limit [] rfl rfl rfl

/-- Two colons end groups. -/
theorem groups_colons (first : Bool) (limit : ℕ) {rest : List Char} (absent : '.' ∉ rest) :
    groups first limit (':' :: ':' :: rest) = ([], false, ':' :: ':' :: rest) := by
  have noGroup (text : List Char) : group? (':' :: text) = none := by
    refine group?_of_head ?_
    rintro _ ⟨⟩
    rfl
  rcases first with _ | _
  · exact groups_of_none false limit _ rfl (quad?_of_not_mem (by simp [absent])) (noGroup rest)
  · exact groups_of_none true limit _ rfl (quad?_of_not_mem (by simp [absent])) (noGroup _)

/-- Groups behind colons are read up to where they end. -/
theorem groups_behindColons {gs : List ℕ} (small : ∀ group ∈ gs, group < 65536) {limit : ℕ}
    (fits : gs.length ≤ limit) {rest : List Char} (closes : Closes rest)
    (ends : groups false (limit - gs.length) rest = ([], false, rest)) :
    groups false limit (behindColons gs ++ rest) = (gs, false, rest) := by
  induction gs generalizing limit with
  | nil => exact ends
  | cons group gs ih =>
    obtain ⟨limit, rfl⟩ : ∃ fewer, limit = fewer + 1 := ⟨limit - 1, by grind⟩
    obtain ⟨one, others⟩ := List.forall_mem_cons.1 small
    rw [List.length_cons] at fits ends
    rw [Nat.add_sub_add_right] at ends
    have later := ih others (by omega) ends
    have front : skip? ':' (behindColons (group :: gs) ++ rest) =
        some (Nat.toDigits 16 group ++ (behindColons gs ++ rest)) := by
      rw [behindColons, List.flatMap_cons, ← behindColons, List.append_assoc]
      rfl
    have closes' := closes.behindColons gs
    rw [groups_group false (behindColons (group :: gs) ++ rest) front (closes'.noQuad group)
      (group?_append one closes'.head), later]

/-- Groups are read up to where they end. -/
theorem groups_groupsText {gs : List ℕ} (small : ∀ group ∈ gs, group < 65536) {limit : ℕ}
    (fits : gs.length ≤ limit) {rest : List Char} (closes : Closes rest)
    (ends : groups gs.isEmpty (limit - gs.length) rest = ([], false, rest)) :
    groups true limit (groupsText gs ++ rest) = (gs, false, rest) := by
  rcases gs with _ | ⟨group, gs⟩
  · exact ends
  · obtain ⟨limit, rfl⟩ : ∃ fewer, limit = fewer + 1 := ⟨limit - 1, by grind⟩
    obtain ⟨one, others⟩ := List.forall_mem_cons.1 small
    rw [List.length_cons] at fits ends
    rw [Nat.add_sub_add_right] at ends
    have later := groups_behindColons others (by omega) closes ends
    have closes' := closes.behindColons gs
    rw [groupsText_cons, List.append_assoc, groups_group true _ rfl (closes'.noQuad group)
      (group?_append one closes'.head), later]

/-! ### Zeros that have been left out -/

theorem eq_replicate_append (gs : List ℕ) :
    ∃ rest, gs = List.replicate (leadingZeros gs) 0 ++ rest := by
  refine ⟨gs.dropWhile (· = 0), ?_⟩
  have zeros : gs.takeWhile (· = 0) = List.replicate (leadingZeros gs) 0 := by
    refine List.eq_replicate_iff.2 ⟨rfl, fun group here ↦ ?_⟩
    simpa using List.mem_takeWhile_imp here
  rw [← zeros, List.takeWhile_append_dropWhile]

/-- What is left out is a run of zeros. -/
theorem exists_longestZeros (place : ℕ) (gs : List ℕ) : ∃ before after,
    gs = before ++ List.replicate (longestZeros place gs).2 0 ++ after ∧
      (longestZeros place gs).1 = place + before.length := by
  induction gs generalizing place with
  | nil => exact ⟨[], [], rfl, rfl⟩
  | cons group gs ih =>
    rw [longestZeros]
    split
    · obtain ⟨after, run⟩ := eq_replicate_append (group :: gs)
      exact ⟨[], after, run, rfl⟩
    · obtain ⟨before, after, run, here⟩ := ih (place + 1)
      refine ⟨group :: before, after, ?_, ?_⟩
      · rw [List.cons_append, List.cons_append, ← run]
      · rw [here, List.length_cons]
        omega

/-! ### Whole addresses -/

theorem v6?_groupsText {gs : List ℕ} (small : ∀ group ∈ gs, group < 65536) (all : gs.length = 8) :
    v6? (groupsText gs) = some (ofGroups gs) := by
  have read : groups true 8 (groupsText gs ++ []) = (gs, false, []) :=
    groups_groupsText small (Nat.le_of_eq all) ⟨nofun, List.not_mem_nil⟩ (groups_nil ..)
  rw [List.append_nil] at read
  rw [v6?, read]
  dsimp only
  rw [if_pos all]
  rfl

/-- Zeros are put back between what is written. -/
theorem v6?_colons {text rest : List Char} {head tail : List ℕ} {quad : Bool}
    (front : groups true 8 text = (head, false, ':' :: ':' :: rest)) (short : head.length ≠ 8)
    (behind : groups true (7 - head.length) rest = (tail, quad, [])) :
    v6? text =
      some (ofGroups (head ++ List.replicate (8 - head.length - tail.length) 0 ++ tail)) := by
  rw [v6?, front]
  simp only [short, if_false, Bool.false_eq_true, behind, List.isEmpty_nil, if_true]

theorem v6?_compressed {before after : List ℕ} (small : ∀ group ∈ before, group < 65536)
    (small' : ∀ group ∈ after, group < 65536) {zeros : ℕ} (several : 1 < zeros)
    (all : before.length + zeros + after.length = 8) :
    v6? (groupsText before ++ ':' :: ':' :: groupsText after) =
      some (ofGroups (before ++ List.replicate zeros 0 ++ after)) := by
  have absent := point_not_mem (isGroupPart_groupsText after)
  have closes : Closes (':' :: ':' :: groupsText after) := by
    refine ⟨?_, by simp [absent]⟩
    rintro _ ⟨⟩
    rfl
  have head := groups_groupsText small (by omega : before.length ≤ 8) closes
    (groups_colons _ _ absent)
  have tail : groups true (7 - before.length) (groupsText after ++ []) = (after, false, []) :=
    groups_groupsText small' (by omega) ⟨nofun, List.not_mem_nil⟩ (groups_nil ..)
  have left_out : 8 - before.length - after.length = zeros := by omega
  rw [List.append_nil] at tail
  rw [v6?_colons head (by omega) tail, left_out]

theorem v6?_compressedText {gs : List ℕ} (small : ∀ group ∈ gs, group < 65536)
    (all : gs.length = 8) : v6? (compressedText gs) = some (ofGroups gs) := by
  obtain ⟨before, after, run, place⟩ := exists_longestZeros 0 gs
  rw [compressedText]
  generalize longestZeros 0 gs = longest at run place ⊢
  obtain ⟨start, zeros⟩ := longest
  dsimp only at run place ⊢
  rw [Nat.zero_add] at place
  subst place
  rcases Nat.lt_or_ge 1 zeros with several | few
  · -- the two ends of the text are what is around the run
    have head : gs.take before.length = before := by
      rw [run, List.append_assoc, List.take_left]
    have tail : gs.drop (before.length + zeros) = after := by
      have size : (before ++ List.replicate zeros 0).length = before.length + zeros := by simp
      rw [run, ← size, List.drop_left]
    rw [if_pos several, head, tail]
    subst run
    rw [List.forall_mem_append, List.forall_mem_append] at small
    refine v6?_compressed small.1.1 small.2 several ?_
    simpa [Nat.add_assoc] using all
  · rw [if_neg (Nat.not_lt.2 few)]
    exact v6?_groupsText small all

/-- An address of the first family behind the marks of the second. -/
theorem v6?_mapped {high low : ℕ} (smallHigh : high < 65536) (smallLow : low < 65536) :
    v6? ("::ffff:".toList ++ quadText (high / 256) (high % 256) (low / 256) (low % 256)) =
      some (ofGroups [0, 0, 0, 0, 0, 0xFFFF, high, low]) := by
  have quad := quad?_quadText (by omega : high / 256 < 256) (by omega : high % 256 < 256)
    (by omega : low / 256 < 256) (by omega : low % 256 < 256)
  have marks : "::ffff:".toList = [':', ':', 'f', 'f', 'f', 'f', ':'] := rfl
  rw [marks]
  -- with the numbers hidden, what is in front of them is read by computation alone
  generalize quadText (high / 256) (high % 256) (low / 256) (low % 256) = text at quad ⊢
  have head : groups true 8 (':' :: ':' :: 'f' :: 'f' :: 'f' :: 'f' :: ':' :: text) =
      ([], false, _) := groups_of_none true 8 _ rfl rfl rfl
  have numbers : groups false 6 (':' :: text) = ([high, low], true, []) := by
    rw [groups_quad false (':' :: text) 4 rfl quad, Nat.div_add_mod', Nat.div_add_mod']
  have tail : groups true 7 ('f' :: 'f' :: 'f' :: 'f' :: ':' :: text) =
      ([0xFFFF, high, low], true, []) := by
    have noQuad : quad? ('f' :: 'f' :: 'f' :: 'f' :: ':' :: text) = none := rfl
    have first : group? ('f' :: 'f' :: 'f' :: 'f' :: ':' :: text) = some (0xFFFF, ':' :: text) :=
      rfl
    rw [groups_group true _ rfl noQuad first, numbers]
  show v6? (':' :: ':' :: 'f' :: 'f' :: 'f' :: 'f' :: ':' :: text) = _
  rw [v6?_colons head (by decide) tail]
  rfl

theorem ofGroups_map_toNat (gs : Vector UInt16 8) :
    ofGroups (gs.toList.map UInt16.toNat) = .v6 gs := by
  rw [ofGroups]
  congr 1
  ext i bound
  simp

theorem v6?_chars (gs : Vector UInt16 8) :
    quad? (chars (.v6 gs)) = none ∧ v6? (chars (.v6 gs)) = some (.v6 gs) := by
  have all : (gs.toList.map UInt16.toNat).length = 8 := by simp
  have small : ∀ group ∈ gs.toList.map UInt16.toNat, group < 65536 := by
    simp only [List.forall_mem_map]
    exact fun group _ ↦ group.toNat_lt
  rw [chars, ← ofGroups_map_toNat]
  generalize gs.toList.map UInt16.toNat = groups at all small ⊢
  split
  · next high low => exact ⟨rfl, v6?_mapped (small high (by simp)) (small low (by simp))⟩
  · have absent := point_not_mem (isGroupPart_compressedText groups)
    exact ⟨quad?_of_not_mem absent, v6?_compressedText small all⟩

/-- The text of every address is read as that address. -/
theorem parse?_text (a : IpAddress) : parse? a.text = some a := by
  rw [parse?, text, String.toList_ofList]
  rcases a with ⟨a, b, c, d⟩ | gs
  · rw [chars, quad?_quadText a.toNat_lt b.toNat_lt c.toNat_lt d.toNat_lt]
    simp
  · obtain ⟨noQuad, read⟩ := v6?_chars gs
    rw [noQuad]
    exact read

/-! ### The characters of an address -/

/-- The character may stand in the text of an address. -/
def isPart (c : Char) : Bool := isGroupPart c || c = '.'

theorem isPart_of_isGroupPart {c : Char} (h : isGroupPart c = true) : isPart c = true := by
  rw [isPart, h, Bool.true_or]

/-- No control character stands in the text of an address. -/
theorem le_of_isPart {c : Char} (h : isPart c = true) : ' ' ≤ c := by
  simp only [isPart, isGroupPart, Bool.or_eq_true, decide_eq_true_eq] at h
  rcases h with (digit | rfl) | rfl
  · rw [hexValue?] at digit
    split at digit
    · next decimal =>
      have low := (Char.isDigit_iff_toNat.1 decimal).1
      exact Char.le_def.2 (UInt32.le_iff_toNat_le.2 (Nat.le_trans (by decide : 32 ≤ 48) low))
    · split at digit
      · next range => exact Char.le_trans (by decide : ' ' ≤ 'a') range.1
      · split at digit
        · next range => exact Char.le_trans (by decide : ' ' ≤ 'A') range.1
        · cases digit
  · decide
  · decide

theorem isPart_quadText (a b c d : ℕ) : ∀ e ∈ quadText a b c d, isPart e = true := by
  have digits (n : ℕ) : ∀ e ∈ decimal n, isPart e = true := by
    intro e digit
    simp [isPart, isGroupPart, hexValue?, isDigit_of_mem_toDigits digit]
  simp only [quadText, List.forall_mem_append, List.forall_mem_cons]
  exact ⟨⟨⟨digits a, rfl, digits b⟩, rfl, digits c⟩, rfl, digits d⟩

theorem isPart_chars (a : IpAddress) : ∀ c ∈ a.chars, isPart c = true := by
  rcases a with ⟨a, b, c, d⟩ | gs
  · exact isPart_quadText _ _ _ _
  · rw [chars]
    split
    · exact List.forall_mem_append.2 ⟨List.all_eq_true.1 rfl, isPart_quadText _ _ _ _⟩
    · exact fun c here ↦ isPart_of_isGroupPart (isGroupPart_compressedText _ c here)

/-- No address is written as nothing. -/
theorem chars_ne_nil (a : IpAddress) : a.chars ≠ [] := by
  intro nothing
  have read := a.parse?_text
  rw [text, nothing] at read
  cases read

end ShowControl.IpAddress
