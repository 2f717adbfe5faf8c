import Estree.Proofs.Escape.Value

/-!
# Zeros in front of a code point

A code point in braces is the same with zeros in front of its digits. As an escape it is read if its
digits are eight at most, zeros included; beyond that the whole text has no value, although ECMAScript
limits the value of a code point alone.

An escape may stand anywhere in a text. What comes before it ends outside of escapes (`Escape.Closed`),
and is read without regard to what comes after (`Escape.Leads`): reading stops in it, or goes on at the
escape, or goes on there with the first half of a surrogate pair.
-/

namespace Estree

namespace Escape

variable {quote : Quote} {c : Char} {pre mid code cs ds digits rest value : List Char}
  {point high taken zeros : Nat}

/-! ## Texts before an escape -/

/-- A text ends outside of escapes: each backslash that opens one has a character behind it. -/
inductive Closed : List Char → Prop
  | nil : Closed []
  | plain {c : Char} {cs : List Char} : c ≠ '\\' → Closed cs → Closed (c :: cs)
  | escaped {c : Char} {cs : List Char} : Closed cs → Closed ('\\' :: c :: cs)

namespace Closed

theorem of_cons (h : Closed (c :: cs)) (hc : c ≠ '\\') : Closed cs := by
  cases h with
  | plain _ h => exact h
  | escaped => exact absurd rfl hc

theorem of_backslash (h : Closed ('\\' :: cs)) : ∃ c rest, cs = c :: rest ∧ Closed rest := by
  cases h with
  | plain hc => exact absurd rfl hc
  | escaped h => exact ⟨_, _, rfl, h⟩

theorem of_append (h : Closed (cs ++ rest)) (hcs : '\\' ∉ cs) : Closed rest := by
  induction cs with
  | nil => exact h
  | cons c cs ih =>
    obtain ⟨hc, hcs⟩ := not_or.1 (mt List.mem_cons.2 hcs)
    exact ih (of_cons h (Ne.symm hc)) hcs

end Closed

/-- What has no backslash and begins a text with an escape ends before the escape. -/
theorem exists_append_of_not_mem (h : cs ++ rest = mid ++ '\\' :: ds) (hcs : '\\' ∉ cs) :
    ∃ gap, mid = cs ++ gap := by
  rcases List.append_eq_append_iff.1 h with ⟨gap, rfl, -⟩ | ⟨gap, rfl, hds⟩
  · exact ⟨gap, rfl⟩
  · cases gap with
    | nil => exact ⟨[], by simp⟩
    | cons c gap =>
      obtain ⟨rfl, -⟩ := List.cons.inj hds
      exact absurd (List.mem_append_right _ List.mem_cons_self) hcs

theorem not_mem_of_isHex (h : ∀ c ∈ ds, isHex c) : '\\' ∉ ds := fun hmem =>
  absurd (h _ hmem) (by decide)

theorem Code.not_mem (h : Code cs point) : '\\' ∉ cs := by
  cases h with
  | four _ hwrites => exact not_mem_of_isHex (isHex_of_writes hwrites)
  | braced _ _ hwrites =>
    have hdigits := not_mem_of_isHex (isHex_of_writes hwrites)
    simp [hdigits]

/-- A Unicode escape before another escape is read, or not, whatever the other one is. -/
theorem unicode?_before (mid : List Char) : (∀ tail, unicode? (mid ++ '\\' :: tail) = none) ∨
    ∃ code gap point, mid = code ++ gap ∧ Code code point := by
  by_cases hread : ∀ tail, unicode? (mid ++ '\\' :: tail) = none
  · exact .inl hread
  · obtain ⟨tail, htail⟩ := not_forall.1 hread
    obtain ⟨⟨point, taken⟩, hpoint⟩ := Option.ne_none_iff_exists'.1 htail
    obtain ⟨code, hcode, -, hsplit⟩ := exists_code hpoint
    obtain ⟨gap, hgap⟩ := exists_append_of_not_mem hsplit.symm hcode.not_mem
    exact .inr ⟨code, gap, point, hgap, hcode⟩

theorem Code.lowHalf?_eq (h : Code code low) : lowHalf? ('\\' :: 'u' :: (code ++ rest))
    = if IsLow low then some (low, code.length + 2) else none := by
  rw [lowHalf?_cons, h.unicode?_append]
  rfl

/-- Between the halves of a surrogate pair nothing is left out. -/
theorem lowHalf?_before (h : Closed mid) (hne : mid ≠ []) :
    (∀ tail, lowHalf? (mid ++ '\\' :: tail) = none) ∨
    ∃ code gap low, mid = '\\' :: 'u' :: (code ++ gap) ∧ Code code low ∧ IsLow low := by
  by_cases hopen : ∃ cs, mid = '\\' :: 'u' :: cs
  case neg =>
    refine .inl fun tail => lowHalf?_eq_none fun hfirst hsecond => hopen ?_
    obtain ⟨c, cs, rfl⟩ := List.exists_cons_of_ne_nil hne
    obtain rfl : c = '\\' := Option.some.inj hfirst
    obtain ⟨d, rest, rfl, -⟩ := h.of_backslash
    obtain rfl : d = 'u' := Option.some.inj hsecond
    exact ⟨rest, rfl⟩
  case pos =>
    obtain ⟨cs, rfl⟩ := hopen
    rcases unicode?_before cs with hnone | ⟨code, gap, low, rfl, hcode⟩
    · refine .inl fun tail => ?_
      rw [List.cons_append, List.cons_append, lowHalf?_cons, hnone]
      rfl
    · by_cases hlow : IsLow low
      · exact .inr ⟨code, gap, low, rfl, hcode, hlow⟩
      · refine .inl fun tail => ?_
        rw [List.cons_append, List.cons_append, List.append_assoc, hcode.lowHalf?_eq, if_neg hlow]

/-! ## Escapes of code points -/

/-- The character of the two halves of a surrogate pair. -/
def pairOf (high low : Nat) : Char := Char.ofNat (0x10000 + (high - 0xD800) * 0x400 + (low - 0xDC00))

/-- The value of a text that begins with an escape of a code point, by what comes after it. -/
def cookAfter (quote : Quote) (point : Nat) (rest : List Char) : Option (List Char) :=
  if IsHigh point then
    match lowHalf? rest with
    | some (low, taken) => (cook quote (rest.drop taken)).map (pairOf point low :: ·)
    | none => (cook quote rest).map (replacement :: ·)
  else (cook quote rest).map (charOf point :: ·)

theorem Code.cook_eq (h : Code code point) :
    cook quote ('\\' :: 'u' :: (code ++ rest)) = cookAfter quote point rest := by
  have hescape : escape quote ('u' :: (code ++ rest))
      = (unicodeChar? (code ++ rest)).map fun p => ([p.1], p.2 + 1) := rfl
  have hchar : unicodeChar? (code ++ rest) = if IsHigh point then
      match lowHalf? rest with
      | some (low, taken) => some (pairOf point low, code.length + taken)
      | none => some (replacement, code.length)
      else some (charOf point, code.length) := by
    rw [unicodeChar?, h.unicode?_append, Option.bind_eq_bind, Option.bind_some]
    simp only [List.drop_left]
    rfl
  rw [cook, hescape, hchar, cookAfter]
  by_cases hhigh : IsHigh point
  case neg =>
    rw [if_neg hhigh, if_neg hhigh, Option.map_some]
    simp only [List.drop_succ_cons, List.drop_left]
    rfl
  case pos =>
    rw [if_pos hhigh, if_pos hhigh]
    cases lowHalf? rest with
    | none =>
      simp only [Option.map_some, List.drop_succ_cons, List.drop_left]
      rfl
    | some p =>
      simp only [Option.map_some, List.drop_succ_cons, List.drop_length_add_append]
      rfl

/-! ## Other escapes -/

/-- How an escape is read that another one comes after: not at all, or from characters without a
backslash and with one value, whatever comes with the other one. -/
inductive Settled (quote : Quote) (c : Char) (mid : List Char) : Prop
  | unread : (∀ tail, escape quote (c :: (mid ++ '\\' :: tail)) = none) → Settled quote c mid
  | read (value eaten gap : List Char) : mid = eaten ++ gap → '\\' ∉ eaten →
    (∀ tail, escape quote (c :: (mid ++ '\\' :: tail)) = some (value, eaten.length + 1)) →
    Settled quote c mid

theorem Settled.of_letter (value : List Char)
    (h : ∀ tail, escape quote (c :: (mid ++ '\\' :: tail)) = some (value, 1)) :
    Settled quote c mid := .read value [] mid rfl List.not_mem_nil h

theorem settled_hex : Settled quote 'x' mid := by
  have hescape (cs : List Char) : escape quote ('x' :: cs) = if (cs.take 2).length = 2 then
      (hexPoint? (cs.take 2)).map fun point => ([charOf point], 3) else none := rfl
  by_cases hread : ∀ tail, escape quote ('x' :: (mid ++ '\\' :: tail)) = none
  case pos => exact .unread hread
  case neg =>
    obtain ⟨tail, htail⟩ := not_forall.1 hread
    obtain ⟨p, hp⟩ := Option.ne_none_iff_exists'.1 htail
    rw [hescape] at hp
    split at hp
    case isFalse => cases hp
    case isTrue hlength =>
      obtain ⟨point, hpoint, -⟩ := Option.map_eq_some_iff.1 hp
      have hdigits := not_mem_of_isHex (isHex_of_writes (hexPoint?_eq_some_iff.1 hpoint).2.2)
      obtain ⟨gap, hgap⟩ := exists_append_of_not_mem (List.take_append_drop 2 _) hdigits
      generalize (mid ++ '\\' :: tail).take 2 = digits at *
      refine .read [charOf point] digits gap hgap hdigits fun tail => ?_
      have htake : (mid ++ '\\' :: tail).take 2 = digits := by
        rw [hgap, List.append_assoc]
        exact List.take_left' hlength
      rw [hescape, htake, if_pos hlength, hpoint, hlength]
      rfl

theorem settled_return : Settled quote '\r' mid := by
  by_cases hfeed : ∃ gap, mid = '\n' :: gap
  case pos =>
    obtain ⟨gap, rfl⟩ := hfeed
    exact .read [] ['\n'] gap rfl (by decide) fun _ => rfl
  case neg =>
    refine .of_letter [] fun tail => ?_
    rw [escape_return, if_neg]
    intro hhead
    cases mid with
    | nil => cases hhead
    | cons d gap => exact hfeed ⟨gap, by rw [Option.some.inj hhead]⟩

/-- An octal escape has the same digits whatever comes with the escape after it. -/
theorem takeWhile_isOctal_append {k : Nat} :
    ((mid ++ '\\' :: rest).take k).takeWhile isOctal = (mid.take k).takeWhile isOctal := by
  induction mid generalizing k with
  | nil =>
    have hend : ¬goesOnOctal ('\\' :: rest) := Bool.false_ne_true
    rw [List.nil_append, takeWhile_isOctal_of_not hend, List.take_nil, List.takeWhile_nil]
  | cons c mid ih =>
    cases k with
    | zero => rfl
    | succ k => rw [List.cons_append, List.take_succ_cons, List.take_succ_cons, List.takeWhile_cons,
        List.takeWhile_cons, ih]

theorem settled_octal (hoctal : isOctal c)
    (h : ∀ tail, escape quote (c :: (mid ++ '\\' :: tail))
      = (numberOf? 8 (octalDigits (c :: (mid ++ '\\' :: tail)))).map fun point =>
        ([charOf point], (octalDigits (c :: (mid ++ '\\' :: tail))).length)) : Settled quote c mid := by
  simp only [octalDigits_cons hoctal, takeWhile_isOctal_append] at h
  have hprefix := (List.takeWhile_prefix isOctal).trans
    (List.take_prefix (if c ≤ '3' then 2 else 1) mid)
  have hbackslash : '\\' ∉ (mid.take (if c ≤ '3' then 2 else 1)).takeWhile isOctal := by
    intro hmem
    exact absurd (List.all_eq_true.1 List.all_takeWhile _ hmem) Bool.false_ne_true
  generalize (mid.take (if c ≤ '3' then 2 else 1)).takeWhile isOctal = eaten at *
  obtain ⟨gap, hgap⟩ := hprefix
  cases hnumber : numberOf? 8 (c :: eaten) with
  | none =>
    rw [hnumber] at h
    exact .unread h
  | some point =>
    rw [hnumber] at h
    exact .read [charOf point] eaten gap hgap.symm hbackslash h

theorem settled_other
    (hc : c ∉ ['n', 'r', 't', 'b', 'f', 'v', 'x', 'u', '\r', '\n', '\u2028', '\u2029']) :
    Settled quote c mid := by
  have hhead (tail : List Char) : (mid ++ '\\' :: tail).head? = (mid ++ ['\\']).head? := by
    cases mid <;> rfl
  by_cases hnull : c = '0' ∧ !(mid ++ ['\\']).head?.any isDecimal
  case pos =>
    refine .of_letter ['\x00'] fun tail => ?_
    rw [escape_other hc, hhead, if_pos hnull]
  by_cases hdecimal : isDecimal c
  case neg =>
    refine .of_letter [c] fun tail => ?_
    rw [escape_other hc, hhead, if_neg hnull, if_neg hdecimal]
  cases quote with
  | template =>
    refine .unread fun tail => ?_
    rw [escape_other hc, hhead, if_neg hnull, if_pos hdecimal]
  | string =>
    by_cases hoctal : isOctal c
    case neg =>
      refine .of_letter [c] fun tail => ?_
      rw [escape_other hc, hhead, if_neg hnull, if_pos hdecimal]
      exact if_neg hoctal
    case pos =>
      refine settled_octal hoctal fun tail => ?_
      rw [escape_other hc, hhead, if_neg hnull, if_pos hdecimal]
      exact if_pos hoctal

/-- An escape is read without regard to what comes with the escape after it, unless both are of code
points. -/
theorem settled (hc : c ≠ 'u') : Settled quote c mid := by
  by_cases hother : c ∉ ['n', 'r', 't', 'b', 'f', 'v', 'x', 'u', '\r', '\n', '\u2028', '\u2029']
  case pos => exact settled_other hother
  case neg =>
    simp only [List.mem_cons, List.not_mem_nil, or_false, not_not, hc, false_or] at hother
    rcases hother with rfl | rfl | rfl | rfl | rfl | rfl | rfl | rfl | rfl | rfl | rfl
    case inr.inr.inr.inr.inr.inr.inl => exact settled_hex
    case inr.inr.inr.inr.inr.inr.inr.inl => exact settled_return
    all_goals exact .of_letter _ fun _ => rfl

/-! ## What is read before an escape -/

/-- How a text is read that is followed by an escape: reading stops before the escape, or goes on at the
escape, or at the escape as what follows the first half of a surrogate pair. -/
inductive Leads (quote : Quote) (pre : List Char) : Prop
  | stuck : (∀ tail, cook quote (pre ++ '\\' :: tail) = none) → Leads quote pre
  | whole (value : List Char) : (∀ tail, cook quote (pre ++ '\\' :: tail)
      = (cook quote ('\\' :: tail)).map (value ++ ·)) → Leads quote pre
  | half (value : List Char) (high : Nat) : (∀ tail, cook quote (pre ++ '\\' :: tail)
      = (cookAfter quote high ('\\' :: tail)).map (value ++ ·)) → Leads quote pre

/-- A text leads to an escape as what is left of it after a round does. -/
theorem Leads.of_round (value : List Char) (h : Leads quote rest)
    (hround : ∀ tail, cook quote (pre ++ '\\' :: tail)
      = (cook quote (rest ++ '\\' :: tail)).map (value ++ ·)) : Leads quote pre := by
  cases h with
  | stuck hstuck =>
    refine .stuck fun tail => ?_
    rw [hround, hstuck]
    rfl
  | whole more hwhole =>
    refine .whole (value ++ more) fun tail => ?_
    rw [hround, hwhole, Option.map_map]
    simp [Function.comp_def]
  | half more high hhalf =>
    refine .half (value ++ more) high fun tail => ?_
    rw [hround, hhalf, Option.map_map]
    simp [Function.comp_def]

/-- What holds of the escapes that come after a text holds of the texts with the text before them. -/
theorem Leads.cook_eq_ite {p : Prop} [Decidable p] (h : Leads quote pre)
    (hcook : cook quote ('\\' :: cs) = if p then cook quote ('\\' :: ds) else none)
    (hafter : ∀ high, cookAfter quote high ('\\' :: cs)
      = if p then cookAfter quote high ('\\' :: ds) else none) :
    cook quote (pre ++ '\\' :: cs) = if p then cook quote (pre ++ '\\' :: ds) else none := by
  cases h with
  | stuck hstuck => rw [hstuck, hstuck, ite_self]
  | whole value hwhole =>
    rw [hwhole, hwhole, hcook]
    split <;> rfl
  | half value high hhalf =>
    rw [hhalf, hhalf, hafter]
    split <;> rfl

/-- A text leads to an escape if all that comes after its first character does. -/
theorem Leads.of_plain (hc : c ≠ '\\') (h : Closed mid)
    (ih : ∀ cs, cs <:+ mid → Closed cs → Leads quote cs) : Leads quote (c :: mid) := by
  by_cases hreturn : c = '\r'
  case neg =>
    refine .of_round [c] (ih mid (List.suffix_refl _) h) fun tail => ?_
    rw [List.cons_append, cook.eq_5 _ _ _ (by simp [hreturn]) (by simp [hreturn]) (by simp [hc])]
    rfl
  case pos =>
    subst hreturn
    by_cases hfeed : ∃ gap, mid = '\n' :: gap
    case pos =>
      obtain ⟨gap, rfl⟩ := hfeed
      have hgap := ih gap (List.suffix_cons _ _) (h.of_cons (by decide))
      refine .of_round ['\n'] hgap fun tail => ?_
      rw [List.cons_append, List.cons_append, cook.eq_2]
      rfl
    case neg =>
      refine .of_round ['\n'] (ih mid (List.suffix_refl _) h) fun tail => ?_
      rw [List.cons_append, cook.eq_3]
      · rfl
      · intro rest hrest
        cases mid with
        | nil => cases hrest
        | cons d gap => exact hfeed ⟨gap, by rw [(List.cons.inj hrest).1]⟩

theorem Leads.of_settled (h : Closed mid) (hsettled : Settled quote c mid)
    (ih : ∀ cs, cs <:+ mid → Closed cs → Leads quote cs) : Leads quote ('\\' :: c :: mid) := by
  cases hsettled with
  | unread hnone =>
    refine .stuck fun tail => ?_
    rw [List.cons_append, List.cons_append, cook.eq_4, hnone]
  | read value eaten gap hmid hbackslash hsome =>
    have hgap := ih gap (hmid ▸ List.suffix_append _ _) ((hmid ▸ h).of_append hbackslash)
    refine .of_round value hgap fun tail => ?_
    rw [List.cons_append, List.cons_append, cook.eq_4, hsome]
    dsimp only
    rw [List.drop_succ_cons, hmid, List.append_assoc, List.drop_left]

/-- Behind the escape of a code point reading goes on with what is left, or with what is left of it behind
the second half of a pair. -/
theorem cookAfter_before (h : Closed mid) (hne : mid ≠ []) :
    ∃ value rest, rest <:+ mid ∧ Closed rest ∧ ∀ tail,
      cookAfter quote point (mid ++ '\\' :: tail) = (cook quote (rest ++ '\\' :: tail)).map (value ++ ·) := by
  by_cases hhigh : IsHigh point
  case neg =>
    refine ⟨[charOf point], mid, List.suffix_refl _, h, fun tail => ?_⟩
    rw [cookAfter, if_neg hhigh]
    rfl
  rcases lowHalf?_before h hne with hnone | ⟨code, rest, low, rfl, hcode, hlow⟩
  · refine ⟨[replacement], mid, List.suffix_refl _, h, fun tail => ?_⟩
    rw [cookAfter, if_pos hhigh, hnone]
    rfl
  · obtain ⟨_, _, hsplit, hclosed⟩ := h.of_backslash
    obtain ⟨-, rfl⟩ := List.cons.inj hsplit
    have hsuffix : rest <:+ '\\' :: 'u' :: (code ++ rest) := ⟨'\\' :: 'u' :: code, by simp⟩
    refine ⟨[pairOf point low], rest, hsuffix, hclosed.of_append hcode.not_mem, fun tail => ?_⟩
    rw [cookAfter, if_pos hhigh, List.cons_append, List.cons_append, List.append_assoc,
      hcode.lowHalf?_eq, if_pos hlow]
    simp only [List.drop_succ_cons, List.drop_left]
    rfl

theorem Leads.of_unicode (h : Closed mid)
    (ih : ∀ cs, cs <:+ mid → Closed cs → Leads quote cs) : Leads quote ('\\' :: 'u' :: mid) := by
  rcases unicode?_before mid with hnone | ⟨code, gap, point, rfl, hcode⟩
  · refine .stuck fun tail => ?_
    have hescape : escape quote ('u' :: (mid ++ '\\' :: tail)) = none := by
      rw [escape, unicodeChar?, hnone]
      rfl
    rw [List.cons_append, List.cons_append, cook.eq_4, hescape]
  have hcook (tail : List Char) : cook quote ('\\' :: 'u' :: (code ++ gap) ++ '\\' :: tail)
      = cookAfter quote point (gap ++ '\\' :: tail) := by
    rw [List.cons_append, List.cons_append, List.append_assoc, hcode.cook_eq]
  by_cases hempty : gap = []
  case pos =>
    subst hempty
    refine .half [] point fun tail => ?_
    rw [hcook]
    simp
  case neg =>
    obtain ⟨value, rest, hsuffix, hclosed, hafter⟩ := cookAfter_before (h.of_append hcode.not_mem) hempty
    have hrest : Leads quote rest := ih rest (hsuffix.trans (List.suffix_append _ _)) hclosed
    exact .of_round value hrest fun tail => (hcook tail).trans (hafter tail)

/-- A text that ends outside of escapes is read without regard to the escape after it. -/
theorem Closed.leads (h : Closed pre) : Leads quote pre := by
  induction hn : pre.length using Nat.strong_induction_on generalizing pre with
  | h n ih =>
    have hshorter (mid : List Char) (hmid : mid.length < n) :
        ∀ cs, cs <:+ mid → Closed cs → Leads quote cs := fun cs hcs hclosed =>
      ih cs.length (Nat.lt_of_le_of_lt hcs.length_le hmid) hclosed rfl
    subst hn
    cases h with
    | nil =>
      refine .whole [] fun tail => ?_
      simp
    | plain hc hmid => exact .of_plain hc hmid (hshorter _ (Nat.lt_succ_self _))
    | @escaped c mid hmid =>
      have hsuffix := hshorter mid (Nat.lt_succ_of_lt (Nat.lt_succ_self _))
      by_cases hc : c = 'u'
      · subst hc
        exact .of_unicode hmid hsuffix
      · exact .of_settled hmid (settled hc) hsuffix

/-! ## The escape -/

/-- The escape of a code point in braces, with zeros in front of its digits, and the text after it. -/
def bracedEscape (zeros : Nat) (digits rest : List Char) : List Char :=
  '\\' :: 'u' :: '{' :: (List.replicate zeros '0' ++ digits ++ '}' :: rest)

theorem bracedEscape_eq : bracedEscape zeros digits rest
    = '\\' :: 'u' :: (('{' :: (List.replicate zeros '0' ++ digits ++ ['}'])) ++ rest) := by
  simp [bracedEscape]

/-- With eight digits at most, zeros included, the escape is read. -/
theorem code_zeros (hdigits : digits ≠ []) (hwrites : Writes 16 digits point)
    (hpoint : point ≤ 0x10FFFF) (hfits : zeros + digits.length ≤ 8) :
    Code ('{' :: (List.replicate zeros '0' ++ digits ++ ['}'])) point :=
  .braced (List.append_ne_nil_of_right_ne_nil _ hdigits) (by simpa using hfits)
    (hwrites.zeros_append (by decide)) hpoint

/-- With more than eight digits it is not. -/
theorem unicode?_zeros (hwrites : Writes 16 digits point) (hlong : ¬zeros + digits.length ≤ 8) :
    unicode? ('{' :: (List.replicate zeros '0' ++ digits ++ '}' :: rest)) = none := by
  have hhex : ∀ c ∈ List.replicate zeros '0' ++ digits, isHex c :=
    isHex_of_writes (hwrites.zeros_append (by decide))
  have hnone : hexPoint? (List.replicate zeros '0' ++ digits) = none := by
    rw [Option.eq_none_iff_forall_not_mem]
    intro n hn
    exact hlong (by simpa using (hexPoint?_eq_some_iff.1 hn).2.1)
  rw [unicode?_braced hhex, hnone]
  rfl

theorem cook_bracedEscape (hdigits : digits ≠ []) (hwrites : Writes 16 digits point)
    (hpoint : point ≤ 0x10FFFF) : cook quote (bracedEscape zeros digits rest)
    = if zeros + digits.length ≤ 8 then cookAfter quote point rest else none := by
  split
  case isTrue hfits => rw [bracedEscape_eq, (code_zeros hdigits hwrites hpoint hfits).cook_eq]
  case isFalse hlong =>
    have hescape : escape quote
        ('u' :: '{' :: (List.replicate zeros '0' ++ digits ++ '}' :: rest)) = none := by
      rw [escape, unicodeChar?, unicode?_zeros hwrites hlong]
      rfl
    rw [bracedEscape, cook.eq_4, hescape]

theorem lowHalf?_bracedEscape (hdigits : digits ≠ []) (hwrites : Writes 16 digits point)
    (hpoint : point ≤ 0x10FFFF) : lowHalf? (bracedEscape zeros digits rest)
    = if zeros + digits.length ≤ 8 ∧ IsLow point then some (point, zeros + digits.length + 4)
      else none := by
  by_cases hfits : zeros + digits.length ≤ 8
  case pos =>
    have htaken : ('{' :: (List.replicate zeros '0' ++ digits ++ ['}'])).length + 2
        = zeros + digits.length + 4 := by simp; omega
    rw [bracedEscape_eq, (code_zeros hdigits hwrites hpoint hfits).lowHalf?_eq, htaken]
    simp only [hfits, true_and]
  case neg =>
    rw [bracedEscape, lowHalf?_cons, unicode?_zeros hwrites hfits, if_neg fun h => hfits h.1]
    rfl

/-- The first half of a pair goes with the escape only if that is read as the second half. -/
theorem cookAfter_bracedEscape (hdigits : digits ≠ []) (hwrites : Writes 16 digits point)
    (hpoint : point ≤ 0x10FFFF) : cookAfter quote high (bracedEscape zeros digits rest)
    = if zeros + digits.length ≤ 8 then
        if IsHigh high ∧ IsLow point then (cook quote rest).map (pairOf high point :: ·)
        else (cookAfter quote point rest).map (charOf high :: ·)
      else none := by
  have hrest : (bracedEscape zeros digits rest).drop (zeros + digits.length + 4) = rest := by
    have hlength : zeros + digits.length + 4 = ('\\' :: 'u' :: ('{' ::
        (List.replicate zeros '0' ++ digits ++ ['}']))).length := by simp; omega
    rw [bracedEscape_eq, ← List.cons_append, ← List.cons_append, hlength, List.drop_left]
  rw [cookAfter, lowHalf?_bracedEscape hdigits hwrites hpoint, cook_bracedEscape hdigits hwrites hpoint]
  by_cases hfits : zeros + digits.length ≤ 8
  case neg =>
    have hlow : ¬(zeros + digits.length ≤ 8 ∧ IsLow point) := fun h => hfits h.1
    rw [if_neg hfits, if_neg hfits, if_neg hlow]
    exact ite_self _
  case pos =>
    rw [if_pos hfits, if_pos hfits]
    by_cases hhigh : IsHigh high
    case neg => rw [if_neg hhigh, if_neg fun h => hhigh h.1]
    case pos =>
      by_cases hlow : IsLow point
      case neg =>
        rw [if_pos hhigh, if_neg fun h => hlow h.2, if_neg fun h => hlow h.2, charOf_surrogate hhigh]
      case pos =>
        rw [if_pos hhigh, if_pos ⟨hfits, hlow⟩, if_pos ⟨hhigh, hlow⟩]
        dsimp only
        rw [hrest]

/-- What is read up to eight digits is the same without the zeros. -/
theorem eq_without_zeros {α : Type} {f : Nat → Option α} {v : Option α} {count : Nat}
    (h : ∀ zeros, f zeros = if zeros + count ≤ 8 then v else none) :
    f zeros = if zeros + count ≤ 8 then f 0 else none := by
  rw [h zeros, h 0]
  split
  case isTrue hfits => rw [if_pos (by omega)]
  case isFalse => rfl

end Escape

open Escape

/-- **Zeros in front of a code point do not matter as far as eight digits**, wherever the escape stands
in a text and in both kinds of texts: the text has the value that it has without the zeros. With more
digits it has none. -/
theorem cook_leadingZeros {quote : Quote} {pre digits rest : List Char} {point zeros : Nat}
    (hpre : Closed pre) (hdigits : digits ≠ []) (hwrites : Writes 16 digits point)
    (hpoint : point ≤ 0x10FFFF) : cook quote (pre ++ bracedEscape zeros digits rest)
    = if zeros + digits.length ≤ 8 then cook quote (pre ++ bracedEscape 0 digits rest) else none := by
  refine hpre.leads.cook_eq_ite ?cook ?after
  case cook =>
    exact eq_without_zeros (f := fun zeros => cook quote (bracedEscape zeros digits rest))
      fun zeros => cook_bracedEscape hdigits hwrites hpoint
  case after =>
    intro high
    exact eq_without_zeros (f := fun zeros => cookAfter quote high (bracedEscape zeros digits rest))
      fun zeros => cookAfter_bracedEscape hdigits hwrites hpoint

/-- The second half of a surrogate pair, with four zeros in front and without. -/
theorem zerosInPair_value :
    Closed ['\\', 'u', 'D', '8', '3', 'D'] ∧ Writes 16 ['D', 'E', '0', '0'] 0xDE00 ∧
    cook .string (['\\', 'u', 'D', '8', '3', 'D'] ++ bracedEscape 4 ['D', 'E', '0', '0'] [])
      = some ['😀'] := by
  have hpre : Closed ['\\', 'u', 'D', '8', '3', 'D'] :=
    .escaped (.plain (by decide) (.plain (by decide) (.plain (by decide) (.plain (by decide) .nil))))
  have hwrites : Writes 16 ['D', 'E', '0', '0'] 0xDE00 := numberOf?_eq_some_iff.1 (by decide)
  refine ⟨hpre, hwrites, ?_⟩
  rw [cook_leadingZeros hpre (by decide) hwrites (by decide), if_pos (by decide)]
  decide +kernel

/-- Nine digits are not read, although seven of them are zeros. -/
theorem sevenZeros_unread : cook .string (bracedEscape 0 ['4', '1'] []) = some ['A'] ∧
    cook .string (bracedEscape 7 ['4', '1'] []) = none := by
  decide +kernel

end Estree
