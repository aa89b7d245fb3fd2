import DistStore.Model.AddressText

/-! Every address comes back from its text. -/

namespace DSS

open Decimal Splice

/-! ## Numbers -/

theorem isspace_of_isDigit {b : UInt8} (h : isDigit b = true) : isspace b = false := by
  rw [isDigit, Bool.and_eq_true, decide_eq_true_eq, decide_eq_true_eq] at h
  have hne : b ≠ 32 := by
    rintro rfl
    exact absurd h.1 (by decide)
  rw [isspace, Bool.or_eq_false_iff, decide_eq_false_iff_not, Bool.and_eq_false_iff,
    decide_eq_false_iff_not, decide_eq_false_iff_not]
  exact ⟨hne, .inr (by omega)⟩

theorem scanSign_of_isDigit {b : UInt8} (h : isDigit b = true) (s : List UInt8) :
    scanSign (b :: s) = (false, b :: s) := by
  have hminus : b ≠ 45 := by
    rintro rfl
    cases h
  have hplus : b ≠ 43 := by
    rintro rfl
    cases h
  rw [scanSign, if_neg hminus, if_neg hplus]

theorem scanNumber_digits {s rest : List UInt8} (hs : Digits s) (hne : s ≠ [])
    (h : rest.takeWhile isDigit = []) : scanNumber (s ++ rest) = some ((value s : ℤ), rest) := by
  obtain ⟨b, t, ht, hb⟩ := hs.append_eq hne rest
  have hspace : (s ++ rest).dropWhile isspace = s ++ rest := by
    rw [ht, List.dropWhile_cons_of_neg]
    rw [isspace_of_isDigit hb]
    exact Bool.false_ne_true
  have hsign : scanSign (s ++ rest) = (false, s ++ rest) := by
    rw [ht, scanSign_of_isDigit hb]
  rw [scanNumber, hspace, hsign]
  show (if (s ++ rest).takeWhile isDigit = [] then none else
    some (if false = true then _ else _, _)) = _
  rw [hs.takeWhile h, hs.dropWhile h, if_neg hne, if_neg Bool.false_ne_true]

theorem scanNumber_end {s : List UInt8} (hs : Digits s) (hne : s ≠ []) :
    scanNumber s = some ((value s : ℤ), []) := by
  have hnil : ([] : List UInt8).takeWhile isDigit = [] := rfl
  have hscan := scanNumber_digits hs hne hnil
  rwa [List.append_nil] at hscan

theorem scanUnsigned_natCast {n : ℕ} (h : n < 2 ^ 32) : scanUnsigned (n : ℤ) = some n := by
  rw [scanUnsigned, Nat.abs_cast, if_pos (by omega), Option.some_inj]
  omega

/-- Nothing is read as 0. -/
theorem atoi_digits {s : List UInt8} (hs : Digits s) (h : value s < 2 ^ 31) :
    atoi s = some (value s : ℤ) := by
  by_cases hne : s = []
  · rw [hne]
    rfl
  · rw [atoi, scanNumber_end hs hne]
    exact intOp_of (Int.natCast_nonneg _) (by omega)

theorem sscanfDotted_dot {s : List UInt8} (hs : Digits s) (hne : s ≠ []) (h : value s < 2 ^ 32)
    (k : ℕ) (rest : List UInt8) :
    sscanfDotted (k + 2) (s ++ 46 :: rest) =
      (sscanfDotted (k + 1) rest).map fun us => value s :: us := by
  rw [sscanfDotted, scanNumber_digits hs hne rfl]
  show (scanUnsigned (value s)).bind _ = _
  rw [scanUnsigned_natCast h]
  show (sscanfDotted (k + 1) rest).bind _ = _
  cases sscanfDotted (k + 1) rest <;> rfl

theorem sscanfDotted_one {s : List UInt8} (hs : Digits s) (hne : s ≠ []) (h : value s < 2 ^ 32) :
    sscanfDotted 1 s = some [value s] := by
  rw [sscanfDotted, scanNumber_end hs hne]
  show (scanUnsigned (value s)).bind _ = _
  rw [scanUnsigned_natCast h]
  rfl

theorem sscanfDotted_ipv4Text (ip : IPv4) :
    sscanfDotted 4 (ipv4Text ip) = some [ip.octet0.toNat, ip.octet1.toNat, ip.octet2.toNat,
      ip.octet3.toNat] := by
  have h (b : UInt8) : value (decimal b.toNat) < 2 ^ 32 := by
    rw [value_decimal]
    exact b.toNat_lt.trans (by decide)
  have hd (b : UInt8) := digits_decimal b.toNat
  have hne (b : UInt8) := decimal_ne_nil b.toNat
  rw [ipv4Text, sscanfDotted_dot (hd _) (hne _) (h _), sscanfDotted_dot (hd _) (hne _) (h _),
    sscanfDotted_dot (hd _) (hne _) (h _), sscanfDotted_one (hd _) (hne _) (h _)]
  simp only [value_decimal, Option.map_some]

theorem ofInt_natCast (n : ℕ) : UInt16.ofInt (n : ℤ) = UInt16.ofNat n := by
  show UInt16.ofNat ((n : ℤ) % (2 ^ 16 : ℕ)).toNat = _
  rw [← Int.natCast_mod, Int.toNat_natCast, UInt16.ofNat_eq_iff_mod_eq_toNat, UInt16.toNat_ofNat',
    Nat.mod_mod]

/-! ## Strings -/

theorem not_mem_cstr (s : List UInt8) : 0 ∉ cstr s := by
  intro h
  simpa using List.mem_takeWhile_imp h

theorem cstr_of_not_mem {s : List UInt8} (h : 0 ∉ s) : cstr s = s :=
  cstr_of_forall fun _ hb hzero => h (hzero ▸ hb)

theorem cstr_append {s : List UInt8} (h : 0 ∉ s) (rest : List UInt8) : cstr (s ++ 0 :: rest) = s :=
  cstr_append_zero (fun _ hb hzero => h (hzero ▸ hb)) rest

theorem not_mem_decimal {b : UInt8} (h : isDigit b = false) (n : ℕ) : b ∉ decimal n :=
  (digits_decimal n).not_mem h

theorem not_mem_ipv4Text {b : UInt8} (h : isDigit b = false) (hdot : b ≠ 46) (ip : IPv4) :
    b ∉ ipv4Text ip := by
  simp only [ipv4Text, List.mem_append, List.mem_cons, not_or]
  exact ⟨not_mem_decimal h _, hdot, not_mem_decimal h _, hdot, not_mem_decimal h _, hdot,
    not_mem_decimal h _⟩

theorem not_mem_addressText (addr : Address) : 0 ∉ addressText addr := by
  simp only [addressText, List.mem_append, List.mem_cons, not_or]
  exact ⟨not_mem_ipv4Text rfl (by decide) _, by decide, not_mem_decimal rfl _⟩

theorem length_addressText_le (addr : Address) : (addressText addr).length ≤ 21 := by
  have hocts (b : UInt8) : (decimal b.toNat).length ≤ 3 :=
    length_decimal_le (by decide) (b.toNat_lt.trans (by decide))
  have hport : (decimal addr.port.toNat).length ≤ 5 :=
    length_decimal_le (by decide) (addr.port.toNat_lt.trans (by decide))
  have h0 := hocts addr.ip.octet0
  have h1 := hocts addr.ip.octet1
  have h2 := hocts addr.ip.octet2
  have h3 := hocts addr.ip.octet3
  simp only [addressText, ipv4Text, List.length_append, List.length_cons]
  omega

theorem addressToString_eq {size : ℕ} (hsize : 22 ≤ size) (addr : Address) (out : List UInt8) :
    addressToString addr out size =
      addressText addr ++ 0 :: out.drop ((addressText addr).length + 1) := by
  have hlen := length_addressText_le addr
  rw [addressToString, if_neg (by omega), snprintf, List.take_of_length_le (by omega), splice,
    List.take_zero, List.nil_append, List.length_append, List.length_singleton, Nat.zero_add,
    List.append_assoc, List.singleton_append]

theorem findIdx?_eq_none {b : UInt8} {s : List UInt8} (h : b ∉ s) : s.findIdx? (· = b) = none := by
  rw [List.findIdx?_eq_none_iff]
  intro x hx
  rw [decide_eq_false_iff_not]
  rintro rfl
  exact h hx

theorem cstr_strncpy (n : ℕ) (src rest : List UInt8) :
    cstr (strncpy n src ++ 0 :: rest) = (cstr src).take n := by
  have hnot : 0 ∉ (cstr src).take n := fun h => not_mem_cstr src (List.mem_of_mem_take h)
  rw [strncpy, List.append_assoc]
  cases n - (cstr src).length with
  | zero => exact cstr_append hnot _
  | succ k => exact cstr_append hnot _

theorem ipv4FromString_congr {s t : List UInt8} (h : cstr s = cstr t) (ip : IPv4) :
    ipv4FromString ip (some s) = ipv4FromString ip (some t) := by
  rw [ipv4FromString, ipv4FromString, h]

theorem addressFromString_host {str h : List UInt8} (ht : (cstr str).take 31 = h) (hcolon : 58 ∉ h)
    (old : Address) :
    addressFromString old (some str) =
      (ipv4FromString old.ip (some h)).map fun x => (x.1, ⟨x.2, 0⟩) := by
  have hbuf : cstr (strncpy 31 str ++ [0]) = h := (cstr_strncpy 31 str []).trans ht
  have hnone : h.findIdx? (· = 58) = none := findIdx?_eq_none hcolon
  have hnot : 0 ∉ h := by
    rw [← ht]
    exact fun hmem => not_mem_cstr str (List.mem_of_mem_take hmem)
  have hcstr : cstr (strncpy 31 str ++ [0]) = cstr h := by
    rw [hbuf, cstr_of_not_mem hnot]
  rw [addressFromString, hbuf, hnone]
  show (ipv4FromString old.ip (some (strncpy 31 str ++ [0]))).bind _ = _
  rw [ipv4FromString_congr hcstr, Option.map_eq_bind]
  rfl

theorem addressFromString_port {str h p : List UInt8} (ht : (cstr str).take 31 = h ++ 58 :: p)
    (hcolon : 58 ∉ h) (old : Address) :
    addressFromString old (some str) =
      (atoi p).bind fun port =>
        (ipv4FromString old.ip (some h)).map fun x => (x.1, ⟨x.2, UInt16.ofInt port⟩) := by
  have hnot : 0 ∉ h ++ 58 :: p := by
    rw [← ht]
    exact fun hmem => not_mem_cstr str (List.mem_of_mem_take hmem)
  rw [List.mem_append, not_or, List.mem_cons, not_or] at hnot
  obtain ⟨pad, hpad⟩ : ∃ pad, strncpy 31 str ++ [0] = h ++ 58 :: p ++ 0 :: pad := by
    rw [strncpy, ht, List.append_assoc]
    cases 31 - (cstr str).length with
    | zero => exact ⟨[], rfl⟩
    | succ k => exact ⟨List.replicate k 0 ++ [0], rfl⟩
  have hbuf : cstr (h ++ 58 :: p ++ 0 :: pad) = h ++ 58 :: p := by
    refine cstr_append ?_ pad
    rw [List.mem_append, List.mem_cons, not_or, not_or]
    exact hnot
  have hfind : (h ++ 58 :: p).findIdx? (· = 58) = some h.length := by
    rw [List.findIdx?_append, findIdx?_eq_none hcolon, List.findIdx?_cons]
    show some (0 + h.length) = _
    rw [Nat.zero_add]
  have hdrop : (h ++ 58 :: p ++ 0 :: pad).drop (h.length + 1) = p ++ 0 :: pad := by
    rw [List.append_assoc, ← List.drop_drop, List.drop_left' rfl]
    rfl
  have hset : (h ++ 58 :: p ++ 0 :: pad).set h.length 0 = h ++ 0 :: (p ++ 0 :: pad) := by
    rw [List.append_assoc, List.set_append_right _ _ le_rfl, Nat.sub_self]
    rfl
  have hhost : cstr (h ++ 0 :: (p ++ 0 :: pad)) = cstr h := by
    rw [cstr_append hnot.1, cstr_of_not_mem hnot.1]
  rw [addressFromString, hpad, hbuf, hfind]
  show (atoi (cstr ((h ++ 58 :: p ++ 0 :: pad).drop (h.length + 1)))).bind _ = _
  rw [hdrop, cstr_append hnot.2.2, hset]
  simp only [ipv4FromString_congr hhost, Option.map_eq_bind]
  rfl

/-- What the four numbers say is stored, cut to a byte each. -/
theorem ipv4FromString_dotted {s : List UInt8} {a b c d : ℕ} (hs : cstr s = s)
    (h : sscanfDotted 4 s = some [a, b, c, d]) (old : IPv4) :
    ipv4FromString old (some s) =
      some (1, ⟨UInt8.ofNat a, UInt8.ofNat b, UInt8.ofNat c, UInt8.ofNat d⟩) := by
  have hhost : ¬ (s = [] ∨ s = LOCALHOST) := by
    rintro (rfl | rfl)
    · cases h
    · have hnothing : sscanfDotted 4 LOCALHOST = some [] := by decide
      rw [hnothing] at h
      cases h
  rw [ipv4FromString, hs, if_neg hhost, h]
  rfl

theorem ipv4FromString_eq (ip old : IPv4) : ipv4FromString old (some (ipv4Text ip)) = some (1, ip) := by
  rw [ipv4FromString_dotted (cstr_of_not_mem (not_mem_ipv4Text rfl (by decide) ip))
    (sscanfDotted_ipv4Text ip)]
  simp only [UInt8.ofNat_toNat]

theorem addressFromString_eq (addr old : Address) (rest : List UInt8) :
    addressFromString old (some (addressText addr ++ 0 :: rest)) = some (1, addr) := by
  have hlen := length_addressText_le addr
  have htake : (cstr (addressText addr ++ 0 :: rest)).take 31 =
      ipv4Text addr.ip ++ 58 :: decimal addr.port.toNat := by
    rw [cstr_append (not_mem_addressText addr), List.take_of_length_le (by omega)]
    rfl
  rw [addressFromString_port htake (not_mem_ipv4Text rfl (by decide) _),
    atoi_digits (digits_decimal _) (by rw [value_decimal]; exact addr.port.toNat_lt.trans (by decide)),
    value_decimal, Option.bind_some, ipv4FromString_eq]
  show some ((1 : ℤ), (⟨addr.ip, UInt16.ofInt (addr.port.toNat : ℤ)⟩ : Address)) = _
  rw [ofInt_natCast, UInt16.ofNat_toNat]

/-! ## The round trip -/

/-- Every address is read back from its text, which fits where it is written and where it is
read; so no two addresses have the same text. -/
theorem address_round_trip {size : ℕ} (hsize : 22 ≤ size) :
    (∀ (addr old : Address) (out : List UInt8), size ≤ out.length →
      ∃ text, addressToString addr out size = text ++ 0 :: out.drop (text.length + 1) ∧
        0 ∉ text ∧ text.length + 1 ≤ size ∧ text.length + 1 ≤ 32 ∧
        addressFromString old (some (addressToString addr out size)) = some (1, addr)) ∧
      ∀ (a b : Address) (out out' : List UInt8),
        cstr (addressToString a out size) = cstr (addressToString b out' size) → a = b := by
  constructor
  · intro addr old out hout
    have hlen := length_addressText_le addr
    refine ⟨addressText addr, addressToString_eq hsize addr out, not_mem_addressText addr,
      by omega, by omega, ?_⟩
    rw [addressToString_eq hsize, addressFromString_eq]
  · intro a b out out' htext
    rw [addressToString_eq hsize, addressToString_eq hsize, cstr_append (not_mem_addressText a),
      cstr_append (not_mem_addressText b)] at htext
    have hread := addressFromString_eq a a []
    rw [htext, addressFromString_eq b a []] at hread
    cases hread
    rfl

/-- The longest text in the smallest buffer. -/
theorem address_round_trip_longest :
    addressFromString Address.zero (some (addressToString ⟨⟨255, 255, 255, 255⟩, 65535⟩
        (List.replicate 22 7) 22)) = some (1, ⟨⟨255, 255, 255, 255⟩, 65535⟩) ∧
      ∀ (a b : Address) (out out' : List UInt8),
        cstr (addressToString a out 22) = cstr (addressToString b out' 22) → a = b := by
  obtain ⟨hread, hinj⟩ := address_round_trip (le_refl 22)
  obtain ⟨text, -, -, -, -, htext⟩ := hread ⟨⟨255, 255, 255, 255⟩, 65535⟩ Address.zero
    (List.replicate 22 7) (by decide)
  exact ⟨htext, hinj⟩

end DSS
