import AnyHttp.Equiv.Advertisement

/-!
# How long an alternative is known

The time that comes with an alternative is read as an unsigned number of seconds, made a signed one,
and then a time of the steady clock, in nanoseconds.  All of this is right as long as that time can
be told by the clock; beyond that, the time is in the past, or it has no value at all.

* `toInt_seconds`: from unsigned to signed.
* `expiry_eq_some_iff`: the time, and when there is one.
* `onAltSvc_lasts_iff`: the alternative.
-/

namespace AnyHttp.Client

open AltSvc

/-! ### The time -/

/-- From the highest half of the numbers, half of the numbers are negative. -/
theorem toInt_seconds (ma : UInt64) :
    ma.toInt64.toInt = if ma.toNat < 2 ^ 63 then (ma.toNat : Int) else ma.toNat - 2 ^ 64 := by
  have hlt := ma.toNat_lt
  have hnat : ma.toBitVec.toNat = ma.toNat := rfl
  show ma.toBitVec.toInt = _
  rw [BitVec.toInt_eq_toNat_cond, hnat]
  omega

theorem checked_eq_some_iff {n : Int} {r : Int64} : checked n = some r ↔ r.toInt = n := by
  have hlow : -2 ^ 63 ≤ r.toInt := r.le_toInt
  have hhigh : r.toInt < 2 ^ 63 := r.toInt_lt
  unfold checked
  split
  · rename_i hn
    rw [Option.some.injEq]
    constructor
    · rintro rfl
      exact Int64.toInt_ofInt_of_le hn.1 hn.2
    · rintro rfl
      exact Int64.ofInt_toInt r
  · rename_i hn
    constructor
    · exact fun h => nomatch h
    · rintro rfl
      exact absurd ⟨hlow, hhigh⟩ hn

/-- What `ma` seconds from `now` are, as a time that the clock can tell. -/
def InTime (now : Int64) (ma : Nat) : Prop :=
  (ma : Int) * 1000000000 < 2 ^ 63 ∧ now.toInt + ma * 1000000000 < 2 ^ 63

instance (now : Int64) (ma : Nat) : Decidable (InTime now ma) :=
  inferInstanceAs (Decidable (_ ∧ _))

/-- The time is right if and only if the clock can tell it. -/
theorem expiry_eq_some_iff (now : Int64) (ma : UInt64) :
    (∃ expires, expiry now ma.toInt64 = some expires ∧
      expires.toInt = now.toInt + ma.toNat * 1000000000) ↔ InTime now ma.toNat := by
  have hlow : -2 ^ 63 ≤ now.toInt := now.le_toInt
  have hseconds := toInt_seconds ma
  have hlt := ma.toNat_lt
  constructor
  · rintro ⟨expires, hexpiry, hexact⟩
    obtain ⟨nanoseconds, hproduct, hsum⟩ := Option.bind_eq_some_iff.mp hexpiry
    rw [checked_eq_some_iff] at hproduct hsum
    have hnanoseconds : nanoseconds.toInt < 2 ^ 63 := nanoseconds.toInt_lt
    have hexpires : expires.toInt < 2 ^ 63 := expires.toInt_lt
    constructor
    · split at hseconds <;> omega
    · omega
  · rintro ⟨hproduct, hsum⟩
    rw [if_pos (by omega)] at hseconds
    obtain ⟨nanoseconds, hnanoseconds⟩ :
        ∃ r, checked (ma.toInt64.toInt * 1000000000) = some r := by
      rw [hseconds, checked, if_pos ⟨by omega, hproduct⟩]
      exact ⟨_, rfl⟩
    have hvalue := checked_eq_some_iff.mp hnanoseconds
    obtain ⟨expires, hexpires⟩ :
        ∃ r, checked (now.toInt + nanoseconds.toInt) = some r := by
      rw [hvalue, hseconds, checked, if_pos ⟨by omega, hsum⟩]
      exact ⟨_, rfl⟩
    refine ⟨expires, ?_, ?_⟩
    · exact Option.bind_eq_some_iff.mpr ⟨nanoseconds, hnanoseconds, hexpires⟩
    · rw [checked_eq_some_iff.mp hexpires, hvalue, hseconds]

/-! ### The alternative -/

/-- What is to become of an alternative that is advertised for `ma` seconds, at `now`. -/
structure Lasts (service : AltService) (ma : UInt64) (now : Int64)
    (after : Option (Option AlternativeService)) : Prop where
  /-- An alternative that expires at once is not known any more. -/
  dropped : ma = 0 → after = some none
  /-- Any other one is known from now on, until its time has come. -/
  learned : 0 < ma → ∃ expires, after = some (some ⟨service.host, service.port, expires⟩) ∧
    expires.toInt = now.toInt + ma.toNat * 1000000000 ∧
      ∀ t, now ≤ t → t.toInt < now.toInt + ma.toNat * 1000000000 →
        altSvc (some ⟨service.host, service.port, expires⟩) t =
          some ⟨service.host, service.port, expires⟩
  /-- A shorter time does not expire any later. -/
  monotone : ∀ ma' ≤ ma, ∃ earlier later, expiry now ma'.toInt64 = some earlier ∧
    expiry now ma.toInt64 = some later ∧ earlier ≤ later

theorem onAltSvc_service {fieldValue : List UInt8} {service : AltService} {ma : UInt64}
    (hservice : (parseAltSvc fieldValue).findService (text "h3") = some service)
    (hma : service.maxAge = ma.toInt64) (known : Option AlternativeService) (now : Int64) :
    onAltSvc true known fieldValue now =
      if ma = 0 then some none
      else (expiry now ma.toInt64).map fun expires =>
        some ⟨service.host, service.port, expires⟩ := by
  have hclear : (parseAltSvc fieldValue).clear = false := by
    unfold parseAltSvc at hservice ⊢
    dsimp only at hservice ⊢
    split at hservice
    · cases hservice
    · rename_i hvalue
      rw [if_neg hvalue]
  have hzero : service.maxAge = 0 ↔ ma = 0 := by
    rw [hma]
    constructor
    · intro h
      have h' := congrArg Int64.toUInt64 h
      rwa [UInt64.toUInt64_toInt64] at h'
    · rintro rfl
      rfl
  unfold onAltSvc
  rw [if_neg (by decide)]
  dsimp only
  rw [hservice, hclear]
  by_cases h : ma = 0
  · have hbeq : (service.maxAge == 0) = true := beq_iff_eq.mpr (hzero.mpr h)
    rw [if_pos h, if_pos (.inr hbeq)]
  · have hbeq : ¬ (false = true ∨ (some service).any (·.maxAge == 0) = true) := by
      rintro (hfalse | hany)
      · cases hfalse
      · exact h (hzero.mp (beq_iff_eq.mp hany))
    rw [if_neg h, if_neg hbeq]
    dsimp only
    rw [hma]
    cases expiry now ma.toInt64 <;> rfl

/-- **The lifetime of an alternative**, of any field value that has one, whatever has been known
before: it is right if and only if its end is a time of the steady clock. -/
theorem onAltSvc_lasts_iff (fieldValue : List UInt8) (service : AltService) (ma : UInt64)
    (hservice : (parseAltSvc fieldValue).findService (text "h3") = some service)
    (hma : service.maxAge = ma.toInt64) (known : Option AlternativeService) (now : Int64) :
    Lasts service ma now (onAltSvc true known fieldValue now) ↔ InTime now ma.toNat := by
  rw [onAltSvc_service hservice hma]
  constructor
  · intro h
    by_cases hzero : ma = 0
    · have hnow : now.toInt < 2 ^ 63 := now.toInt_lt
      subst hzero
      constructor
      · decide
      · simpa using hnow
    · obtain ⟨expires, hafter, hexact, _⟩ := h.learned (UInt64.pos_iff_ne_zero.mpr hzero)
      rw [if_neg hzero] at hafter
      obtain ⟨e, hexpiry, he⟩ := Option.map_eq_some_iff.mp hafter
      cases he
      exact (expiry_eq_some_iff now ma).mp ⟨expires, hexpiry, hexact⟩
  · intro h
    obtain ⟨later, hlater, hexact⟩ := (expiry_eq_some_iff now ma).mpr h
    refine ⟨?_, ?_, ?_⟩
    · intro hzero
      rw [if_pos hzero]
    · intro hpos
      refine ⟨later, ?_, hexact, ?_⟩
      · rw [if_neg (UInt64.pos_iff_ne_zero.mp hpos), hlater]
        rfl
      · intro t _ ht
        have hle : ¬ later ≤ t := by
          rw [Int64.le_iff_toInt_le]
          omega
        exact if_neg hle
    · intro ma' hle
      have hnat : ma'.toNat ≤ ma.toNat := UInt64.le_iff_toNat_le.mp hle
      have hin : InTime now ma'.toNat := by
        obtain ⟨hproduct, hsum⟩ := h
        constructor <;> omega
      obtain ⟨earlier, hearlier, hexact'⟩ := (expiry_eq_some_iff now ma').mpr hin
      refine ⟨earlier, later, hearlier, hlater, ?_⟩
      rw [Int64.le_iff_toInt_le]
      omega

/-! ### A time that the clock can tell, and one that it cannot -/

theorem findService_numeral {port numeral : List UInt8} {ma : UInt64} (hport : IsPort port)
    (hma : AltSvc.fromChars numeral = some ma) :
    (parseAltSvc (advertisement port numeral)).findService (text "h3") =
      some ⟨[0x68, 0x33], [], port, ma.toInt64, false⟩ := by
  have hservices : (parseAltSvc ([] ++ (advertisement port numeral ++ []))).services =
      [⟨[0x68, 0x33], [], port, ma.toInt64, false⟩] :=
    services_advertisement hport hma (by simp) (by simp)
  rw [List.nil_append, List.append_nil] at hservices
  have hh3 : (([0x68, 0x33] : List UInt8) == text "h3") = true := by decide
  rw [findService, hservices]
  exact List.find?_cons_of_pos hh3

/-- 443 is a port. -/
theorem isPort_443 : IsPort (text "443") := ⟨by decide, List.all_eq_true.mp (by decide)⟩

/-- An alternative with `ma=86400` lasts for a day, which is 86400 seconds. -/
theorem onAltSvc_lasts_iff_day :
    Lasts ⟨[0x68, 0x33], [], text "443", 86400, false⟩ 86400 1000000000
      (onAltSvc true none (advertisement (text "443") (text "86400")) 1000000000) :=
  have hma : AltSvc.fromChars (text "86400") = some 86400 := by decide
  (onAltSvc_lasts_iff _ _ _ (findService_numeral isPort_443 hma) (by decide)
    none 1000000000).mpr (by decide)

/-- The largest numeral there is: a second ago.  And the largest duration: no time at all. -/
theorem onAltSvc_overflow :
    AltSvc.fromChars (text "18446744073709551615") = some 18446744073709551615 ∧
      onAltSvc true none (advertisement (text "443") (text "18446744073709551615")) 1000000000 =
        some (some ⟨[], text "443", 0⟩) ∧
      altSvc (some ⟨[], text "443", 0⟩) 1000000000 = none ∧
      AltSvc.fromChars (text "9223372036854775807") = some 9223372036854775807 ∧
      onAltSvc true none (advertisement (text "443") (text "9223372036854775807")) 1000000000 =
        none := by
  have hlargest : AltSvc.fromChars (text "18446744073709551615") = some 18446744073709551615 := by
    decide
  have hlongest :
      AltSvc.fromChars (text "9223372036854775807") = some 9223372036854775807 := by decide
  refine ⟨hlargest, ?_, by decide, hlongest, ?_⟩
  · rw [onAltSvc_service (findService_numeral isPort_443 hlargest) rfl]
    decide
  · rw [onAltSvc_service (findService_numeral isPort_443 hlongest) rfl]
    decide

end AnyHttp.Client
