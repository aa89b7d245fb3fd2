import DistStore.Model.AddressSyntax
import DistStore.Proofs.AddressText

/-! `address_from_string` refuses no string. Of an address it copies 31 bytes, and stores what
those say. -/

namespace DSS

open Decimal

variable {str s h p : List UInt8} {ip : IPv4} {a : Address}

/-! ## What `sscanf` needs -/

theorem scanSign_suffix (s : List UInt8) : (scanSign s).2 <:+ s := by
  unfold scanSign
  split
  · exact List.suffix_rfl
  · split_ifs
    · exact List.suffix_cons _ _
    · exact List.suffix_cons _ _
    · exact List.suffix_rfl

theorem scanNumber_suffix {v : ℤ} {rest : List UInt8} (hscan : scanNumber s = some (v, rest)) :
    rest <:+ s := by
  have hsign := scanSign_suffix (s.dropWhile isspace)
  have hrest : (scanSign (s.dropWhile isspace)).2.dropWhile isDigit <:+ s :=
    (List.dropWhile_suffix _).trans (hsign.trans (List.dropWhile_suffix _))
  unfold scanNumber at hscan
  dsimp only at hscan
  split_ifs at hscan <;> cases hscan <;> exact hrest

theorem sscanfDotted_length {n : ℕ} {us : List ℕ} (hscan : sscanfDotted n s = some us) :
    us.length ≤ s.dropLast.count 46 + 1 := by
  induction n generalizing s us with
  | zero =>
    cases hscan
    exact Nat.zero_le _
  | succ n ih =>
    rw [sscanfDotted] at hscan
    rcases hnumber : scanNumber s with _ | ⟨v, rest⟩
    · rw [hnumber] at hscan
      cases hscan
      exact Nat.zero_le _
    rw [hnumber] at hscan
    obtain ⟨u, -, hscan⟩ := Option.bind_eq_some_iff.mp hscan
    rcases n with _ | n
    · cases hscan
      exact Nat.le_add_left _ _
    rcases rest with _ | ⟨b, rest⟩
    · cases hscan
      exact Nat.le_add_left _ _
    dsimp only at hscan
    split_ifs at hscan with hdot
    · obtain ⟨us', hrest, hscan⟩ := Option.bind_eq_some_iff.mp hscan
      cases hscan
      rcases rest with _ | ⟨b', rest⟩
      · cases hrest
        exact Nat.le_add_left _ _
      · obtain ⟨pre, hpre⟩ := scanNumber_suffix hnumber
        have hcount := ih hrest
        rw [← hpre, hdot, List.dropLast_append_of_ne_nil (List.cons_ne_nil _ _), List.dropLast_cons_cons,
          List.count_append, List.count_cons_self, List.length_cons]
        omega
    · cases hscan
      exact Nat.le_add_left _ _

/-! ## The host -/

theorem ipv4FromString_fst {r : ℤ} {old ip : IPv4} (h : ipv4FromString old (some s) = some (r, ip)) :
    r = 1 := by
  rw [ipv4FromString] at h
  split_ifs at h
  · cases h
    rfl
  · obtain ⟨us, -, h⟩ := Option.bind_eq_some_iff.mp h
    split at h <;> cases h <;> rfl

theorem ipv4FromString_short {x : ℤ × IPv4} {old : IPv4} (hne : s ≠ []) (hlocal : s ≠ LOCALHOST)
    (hs : cstr s = s) (hdots : s.dropLast.count 46 < 3)
    (h : ipv4FromString old (some s) = some x) : x.2 = old := by
  rw [ipv4FromString, hs, if_neg (not_or_intro hne hlocal)] at h
  obtain ⟨us, hus, h⟩ := Option.bind_eq_some_iff.mp h
  have hlen := sscanfDotted_length hus
  split at h
  · rw [List.length_cons, List.length_cons, List.length_cons, List.length_singleton] at hlen
    omega
  · cases h
    rfl

theorem NumberText.not_mem {max : ℕ} {b : UInt8} (hs : NumberText max s) (hb : isDigit b = false) :
    b ∉ s := hs.digits.not_mem hb

theorem HostText.not_mem {b : UInt8} (hh : HostText h ip) (hb : isDigit b = false) (hdot : b ≠ 46)
    (hlocal : b ∉ LOCALHOST) : b ∉ h := by
  cases hh with
  | empty => exact List.not_mem_nil
  | localhost => exact hlocal
  | dotted x y z w hx hy hz hw =>
    simp only [List.mem_append, List.mem_cons, not_or]
    exact ⟨hx.not_mem hb, hdot, hy.not_mem hb, hdot, hz.not_mem hb, hdot, hw.not_mem hb⟩

theorem sscanfDotted_four {x y z w : List UInt8} (hx : NumberText 255 x) (hy : NumberText 255 y)
    (hz : NumberText 255 z) (hw : NumberText 255 w) :
    sscanfDotted 4 (x ++ 46 :: (y ++ 46 :: (z ++ 46 :: w))) =
      some [value x, value y, value z, value w] := by
  have hlt {s : List UInt8} (hs : NumberText 255 s) : value s < 2 ^ 32 :=
    hs.le.trans_lt (by decide)
  rw [sscanfDotted_dot hx.digits hx.ne_nil (hlt hx), sscanfDotted_dot hy.digits hy.ne_nil (hlt hy),
    sscanfDotted_dot hz.digits hz.ne_nil (hlt hz), sscanfDotted_one hw.digits hw.ne_nil (hlt hw)]
  rfl

theorem HostText.read (hh : HostText h ip) (old : IPv4) :
    ipv4FromString old (some h) = some (1, ip) := by
  have hcstr : cstr h = h := cstr_of_not_mem (hh.not_mem rfl (by decide) (by decide))
  cases hh with
  | empty => rfl
  | localhost => rfl
  | dotted x y z w hx hy hz hw => exact ipv4FromString_dotted hcstr (sscanfDotted_four hx hy hz hw) old

theorem HostText.unique {ip' : IPv4} (hh : HostText h ip) (hh' : HostText h ip') : ip = ip' := by
  have hread := hh.read ip
  rw [hh'.read ip] at hread
  cases hread
  rfl

theorem ofNat_eq_iff {m n : ℕ} (hm : m ≤ 255) (hn : n ≤ 255) :
    UInt8.ofNat m = UInt8.ofNat n ↔ m = n := by
  rw [UInt8.ofNat_eq_iff_mod_eq_toNat, UInt8.toNat_ofNat', Nat.mod_eq_of_lt (by omega),
    Nat.mod_eq_of_lt (by omega)]

theorem count_dots {x y z : List UInt8} (hx : Digits x) (hy : Digits y) (hz : Digits z) :
    (x ++ 46 :: (y ++ 46 :: z)).count 46 = 2 := by
  have hzero {s : List UInt8} (hs : Digits s) : s.count 46 = 0 :=
    List.count_eq_zero_of_not_mem (hs.not_mem rfl)
  rw [List.count_append, List.count_cons_self, List.count_append, List.count_cons_self, hzero hx,
    hzero hy, hzero hz]

section dots

variable {m w : List UInt8} {n : ℕ}

theorem count_take_of_lt (hm : m.count 46 = 2) (hw : Digits w) (hlt : m.length < n) :
    ((m ++ 46 :: w).take n).count 46 = 3 := by
  obtain ⟨k, rfl⟩ : ∃ k, n = m.length + (k + 1) := ⟨n - m.length - 1, by omega⟩
  rw [List.take_length_add_append, List.take_succ_cons, List.count_append, List.count_cons_self, hm,
    List.count_eq_zero_of_not_mem ((hw.take k).not_mem rfl)]

theorem count_take_of_le (hm : m.count 46 = 2) (hle : n ≤ m.length) :
    ((m ++ 46 :: w).take n).count 46 < 3 := by
  have hcount := (List.take_sublist n m).count_le 46
  rw [List.take_append_of_le_length hle]
  omega

end dots

/-- The first 31 bytes say what the host says, if a cut octet is 0 and has begun. -/
theorem HostText.read_take_iff (hh : HostText h ip) :
    (∀ old, ipv4FromString old (some (h.take 31)) = some (1, ip)) ↔
      h.length ≤ 31 ∨ ip.octet3 = 0 ∧ (h.take 30).count 46 = 3 := by
  rcases Nat.lt_or_ge 31 h.length with hlong | hle
  swap
  · rw [List.take_of_length_le hle]
    exact iff_of_true (fun old => hh.read old) (.inl hle)
  rw [or_iff_right (by omega)]
  have hnot : 0 ∉ h := hh.not_mem rfl (by decide) (by decide)
  cases hh with
  | empty => exact absurd hlong (by decide)
  | localhost => exact absurd hlong (by decide)
  | dotted x y z w hx hy hz hw =>
    have hsplit : x ++ 46 :: (y ++ 46 :: (z ++ 46 :: w)) = (x ++ 46 :: (y ++ 46 :: z)) ++ 46 :: w := by
      simp only [List.append_assoc, List.cons_append]
    have hdots := count_dots hx.digits hy.digits hz.digits
    rw [hsplit] at hlong hnot ⊢
    set m := x ++ 46 :: (y ++ 46 :: z) with hm
    have hzero : UInt8.ofNat (value w) = 0 ↔ value w = 0 := ofNat_eq_iff hw.le (Nat.zero_le _)
    rw [List.length_append, List.length_cons] at hlong
    rcases Nat.lt_or_ge m.length 30 with hbegun | hcut
    · -- the last number has begun: the digits of it that are left are read
      obtain ⟨k, hk⟩ : ∃ k, 31 = m.length + (k + 1 + 1) := ⟨29 - m.length, by omega⟩
      have hw' : NumberText 255 (w.take (k + 1)) := by
        refine ⟨?_, Digits.take hw.digits _, (value_take_le w _).trans hw.le⟩
        rw [ne_eq, List.take_eq_nil_iff, not_or]
        exact ⟨by omega, hw.ne_nil⟩
      have hread := (HostText.dotted x y z _ hx hy hz hw').read
      have htake : (m ++ 46 :: w).take 31 =
          x ++ 46 :: (y ++ 46 :: (z ++ 46 :: w.take (k + 1))) := by
        rw [hk, List.take_length_add_append, List.take_succ_cons, hm]
        simp only [List.append_assoc, List.cons_append]
      have hvalue := value_take_eq_iff (s := w) (k := k + 1)
      rw [or_iff_right (by omega)] at hvalue
      rw [htake, hzero, ← hvalue, ← ofNat_eq_iff hw'.le hw.le,
        and_iff_left (count_take_of_lt hdots hw.digits hbegun)]
      constructor
      · intro hall
        have hsame := hall ⟨0, 0, 0, 0⟩
        rw [hread] at hsame
        simp only [Option.some.injEq, Prod.mk.injEq, IPv4.mk.injEq, true_and] at hsame
        exact hsame
      · intro heq old
        rw [hread, heq]
    · -- the last number has not begun: what was there stays
      refine iff_of_false (fun hall => ?_) fun hkept => ?_
      swap
      · exact (count_take_of_le hdots hcut).ne hkept.2
      have hlen : ((m ++ 46 :: w).take 31).length = 31 := by
        rw [List.length_take, List.length_append, List.length_cons]
        omega
      have hshort : ((m ++ 46 :: w).take 31).dropLast.count 46 < 3 := by
        rw [List.dropLast_take (by rw [List.length_append, List.length_cons]; omega)]
        exact count_take_of_le hdots hcut
      have hold (old : IPv4) : _ = old := ipv4FromString_short (List.ne_nil_of_length_pos (by omega))
        (fun heq => absurd (heq ▸ hlen) (by decide))
        (cstr_of_not_mem fun hmem => hnot (List.mem_of_mem_take hmem)) hshort (hall old)
      have h0 := hold ⟨0, 0, 0, 0⟩
      rw [hold ⟨0, 0, 0, 1⟩] at h0
      cases h0

/-! ## The port -/

theorem map_address_eq_iff {o : Option (ℤ × IPv4)} {port port' : UInt16} :
    (o.map fun x => (x.1, (⟨x.2, port⟩ : Address))) = some (1, ⟨ip, port'⟩) ↔
      o = some (1, ip) ∧ port = port' := by
  rcases o with _ | ⟨r, ip'⟩
  · simp
  · simp [and_assoc]

theorem portOfNat_eq_iff {m n : ℕ} (hm : m ≤ 65535) (hn : n ≤ 65535) :
    UInt16.ofNat m = UInt16.ofNat n ↔ m = n := by
  rw [UInt16.ofNat_eq_iff_mod_eq_toNat, UInt16.toNat_ofNat', Nat.mod_eq_of_lt (by omega),
    Nat.mod_eq_of_lt (by omega)]

theorem ne_colon (hcolon : 58 ∉ h) : ∀ b ∈ h, decide (b ≠ 58) = true := by
  intro b hb
  rw [decide_eq_true_eq]
  rintro rfl
  exact hcolon hb

theorem takeWhile_noColon (hcolon : 58 ∉ h) : h.takeWhile (· ≠ 58) = h :=
  List.takeWhile_eq_self_iff.mpr (ne_colon hcolon)

theorem takeWhile_host (hcolon : 58 ∉ h) (rest : List UInt8) :
    (h ++ 58 :: rest).takeWhile (· ≠ 58) = h := by
  rw [List.takeWhile_append_of_pos (ne_colon hcolon), List.takeWhile_cons_of_neg (by decide),
    List.append_nil]

theorem addressFromString_take (hs : cstr str = s) (hcolon : 58 ∉ s.take 31) {port : UInt16} :
    (∀ old, addressFromString old (some str) = some (1, ⟨ip, port⟩)) ↔
      (∀ old, ipv4FromString old (some (s.take 31)) = some (1, ip)) ∧ port = 0 := by
  simp only [addressFromString_host (by rw [hs]) hcolon, map_address_eq_iff, eq_comm (a := (0 : UInt16))]
  constructor
  · intro hall
    exact ⟨fun old => (hall ⟨old, 0⟩).1, (hall Address.zero).2⟩
  · rintro ⟨hip, hport⟩ old
    exact ⟨hip old.ip, hport⟩

/-- An address is stored as it is written exactly if the copy keeps it. -/
theorem AddressSyntax.stored_iff (ha : AddressSyntax (cstr str) a) :
    (∀ old, addressFromString old (some str) = some (1, a)) ↔ KeptByCopy (cstr str) a := by
  generalize hs : cstr str = s at ha ⊢
  cases ha with
  | host _ ip hh =>
    have hcolon : 58 ∉ s := hh.not_mem rfl (by decide) (by decide)
    rw [addressFromString_take hs fun hmem => hcolon (List.mem_of_mem_take hmem), hh.read_take_iff,
      KeptByCopy, takeWhile_noColon hcolon]
    tauto
  | port h p ip hh hp =>
    have hcolon : 58 ∉ h := hh.not_mem rfl (by decide) (by decide)
    have hzero : UInt16.ofNat (value p) = 0 ↔ value p = 0 := portOfNat_eq_iff hp.le (Nat.zero_le _)
    have hlen : (h ++ 58 :: p).length = h.length + (p.length + 1) := by
      rw [List.length_append, List.length_cons]
    rw [KeptByCopy, takeWhile_host hcolon, hlen, hzero]
    rcases Nat.lt_or_ge h.length 31 with hshort | hlong
    · -- the copy ends in the port
      obtain ⟨k, hk⟩ : ∃ k, 31 = h.length + (k + 1) := ⟨30 - h.length, by omega⟩
      have htake : (cstr str).take 31 = h ++ 58 :: p.take k := by
        rw [hs, hk, List.take_length_add_append, List.take_succ_cons]
      have hle : value (p.take k) ≤ 65535 := (value_take_le p k).trans hp.le
      have hread (old : Address) : addressFromString old (some str) =
          some (1, ⟨ip, UInt16.ofNat (value (p.take k))⟩) := by
        rw [addressFromString_port htake hcolon, atoi_digits (Digits.take hp.digits k) (by omega),
          Option.bind_some, hh.read, ofInt_natCast]
        rfl
      simp only [hread, Option.some.injEq, Prod.mk.injEq, Address.mk.injEq, true_and, forall_const]
      rw [portOfNat_eq_iff hle hp.le, value_take_eq_iff]
      omega
    · -- the copy ends before the port
      have htake : (h ++ 58 :: p).take 31 = h.take 31 := List.take_append_of_le_length hlong
      have htake' : (h ++ 58 :: p).take 30 = h.take 30 :=
        List.take_append_of_le_length (by omega)
      rw [addressFromString_take hs (by rw [htake]; exact fun hmem => hcolon (List.mem_of_mem_take hmem)),
        htake, htake', hh.read_take_iff, hzero,
        or_iff_right (show ¬ h.length + (p.length + 1) ≤ 31 by omega)]
      exact and_comm

/-! ## Acceptance -/

theorem AddressSyntax.split (ha : AddressSyntax s a) :
    HostText (s.takeWhile (· ≠ 58)) a.ip ∧
      a.port = UInt16.ofNat (value (s.drop ((s.takeWhile (· ≠ 58)).length + 1))) := by
  cases ha with
  | host _ ip hh =>
    rw [takeWhile_noColon (hh.not_mem rfl (by decide) (by decide)),
      List.drop_eq_nil_of_le (Nat.le_succ _)]
    exact ⟨hh, rfl⟩
  | port h p ip hh hp =>
    rw [takeWhile_host (hh.not_mem rfl (by decide) (by decide)), ← List.drop_drop,
      List.drop_left' rfl]
    exact ⟨hh, rfl⟩

theorem AddressSyntax.unique {b : Address} (ha : AddressSyntax s a) (hb : AddressSyntax s b) : a = b := by
  obtain ⟨hip, hport⟩ := ha.split
  obtain ⟨hip', hport'⟩ := hb.split
  have heq : a.ip = b.ip := hip.unique hip'
  rcases a with ⟨ip, port⟩
  rcases b with ⟨ip', port'⟩
  cases heq
  rw [show port = port' from hport.trans hport'.symm]

theorem addressFromString_fst {r : ℤ} {old addr : Address}
    (h : addressFromString old (some str) = some (r, addr)) : r = 1 := by
  obtain ⟨t, ht⟩ : ∃ t, (cstr str).take 31 = t := ⟨_, rfl⟩
  by_cases hcolon : 58 ∈ t
  · obtain ⟨host, p, rfl, hnot⟩ := List.eq_append_cons_of_mem hcolon
    rw [addressFromString_port ht hnot] at h
    obtain ⟨port, -, h⟩ := Option.bind_eq_some_iff.mp h
    obtain ⟨⟨r', ip⟩, hip, h⟩ := Option.map_eq_some_iff.mp h
    cases h
    exact ipv4FromString_fst hip
  · rw [addressFromString_host ht hcolon] at h
    obtain ⟨⟨r', ip⟩, hip, h⟩ := Option.map_eq_some_iff.mp h
    cases h
    exact ipv4FromString_fst hip

/-- The strings for which the result and what is stored are right are the addresses that the
copy keeps. -/
theorem accepts_exactly_iff (str : List UInt8) :
    AcceptsExactly str ↔ ∃ a, AddressSyntax (cstr str) a ∧ KeptByCopy (cstr str) a := by
  constructor
  · intro hall
    obtain ⟨r, addr, hstored, -, hiff, -⟩ := hall Address.zero
    obtain ⟨a, ha⟩ := hiff.mp (addressFromString_fst hstored)
    refine ⟨a, ha, ha.stored_iff.mp fun old => ?_⟩
    obtain ⟨r, addr, hstored, -, -, hwritten⟩ := hall old
    obtain rfl := addressFromString_fst hstored
    rw [hstored, (hwritten rfl).unique ha]
  · rintro ⟨a, ha, hkept⟩ old
    exact ⟨1, a, ha.stored_iff.mpr hkept old, .inl rfl, iff_of_true rfl ⟨a, ha⟩, fun _ => ha⟩

/-- `x` is taken for an address, and nothing is stored but port 0. -/
theorem not_accepts_exactly : ¬ ∀ str, AcceptsExactly str := by
  intro hall
  obtain ⟨r, addr, hstored, -, -, hwritten⟩ := hall [120] Address.zero
  have hx : addressFromString Address.zero (some [120]) = some (1, Address.zero) := by decide
  rw [hx] at hstored
  cases hstored
  obtain ⟨hip, -⟩ := (hwritten rfl).split
  have hread := hip.read ⟨1, 2, 3, 4⟩
  revert hread
  decide

end DSS
