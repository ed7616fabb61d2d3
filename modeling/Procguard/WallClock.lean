import Procguard.Duration

/- The wall clock, which the source converts from mach ticks three times: `wall_now_ns` of
   `runner.rs` and of `wait.rs`, and `precise_now_ns` of `main.rs`. Each keeps the timebase
   it fetched in a cache of its own: a cell that is set after a success, a cell that is
   initialised with the success or the failure, and one 64-bit word.

   1. The caches and the conversions, as the three files have them.
   2. A reader with a cache that always answers as a function does (`Serves`), and what
      such a reader returns over a whole sequence of calls (`Serves.readings_eq`).
   3. With a valid timebase all three serve the same function of the ticks (`wallNs`). -/
namespace Procguard

/-- What `mach_timebase_info` fills in. -/
structure MachTimebaseInfo where
  numer : UInt32
  denom : UInt32

/-- A product of two `u128`, modulo 2^128; none here is as large (`product_lt`). -/
def u128Mul (a b : Nat) : Nat := a * b % 2 ^ 128

/-- `u128::saturating_mul`. -/
def u128SaturatingMul (a b : Nat) : Nat := min (a * b) u128Max

/-- `u128::checked_div`. -/
def u128CheckedDiv (a b : Nat) : Option Nat := if b = 0 then none else some (a / b)

/-! ## runner.rs -/

namespace Runner

/-- `TIMEBASE: AtomicOnce<(u64, u64)>`. -/
abbrev Timebase := Option (UInt64 × UInt64)

def getTimebaseInfo (info : MachTimebaseInfo) (timebase : Timebase) :
    Except TimeoutError (UInt64 × UInt64) × Timebase :=
  match timebase with
  | some cached => (.ok cached, timebase)
  | none =>
    if info.denom = 0 then (.error .timebaseError, timebase)
    else
      let result := (info.numer.toUInt64, info.denom.toUInt64)
      -- cached only on success
      (.ok result, some result)

def wallNowNs (info : MachTimebaseInfo) (absTime : UInt64) (timebase : Timebase) :
    Except TimeoutError UInt64 × Timebase :=
  match getTimebaseInfo info timebase with
  | (.error e, timebase) => (.error e, timebase)
  | (.ok (numer, denom), timebase) =>
    if numer = denom then (.ok absTime, timebase)
    else
      let intermediate := u128Mul absTime.toNat numer.toNat
      match u128CheckedDiv intermediate denom.toNat with
      | none => (.error .timebaseError, timebase)
      | some result => (.ok (UInt64.ofNat result), timebase)

end Runner

/-! ## wait.rs -/

namespace Wait

/-- `TIMEBASE: AtomicOnce<Option<(u64, u64)>>`. -/
abbrev Timebase := Option (Option (UInt64 × UInt64))

def getTimebaseInfo (info : MachTimebaseInfo) (timebase : Timebase) :
    Option (UInt64 × UInt64) × Timebase :=
  match timebase with
  | some inited => (inited, timebase)
  | none =>
    let value :=
      if info.denom = 0 then none else some (info.numer.toUInt64, info.denom.toUInt64)
    (value, some value)

def wallNowNs (info : MachTimebaseInfo) (absTime : UInt64) (timebase : Timebase) :
    UInt64 × Timebase :=
  let (timebaseInfo, timebase) := getTimebaseInfo info timebase
  let (numer, denom) := timebaseInfo.getD (1, 1)
  if numer = denom then (absTime, timebase)
  else
    let intermediate := u128SaturatingMul absTime.toNat numer.toNat
    (((u128CheckedDiv intermediate denom.toNat).map UInt64.ofNat).getD absTime, timebase)

end Wait

/-! ## main.rs -/

namespace Main

/-- `TIMEBASE_CACHE`: `numer << 32 | denom`, 0 before it is initialised. -/
abbrev TimebaseCache := UInt64

def getTimebaseInfo (info : MachTimebaseInfo) (cached : TimebaseCache) :
    Option (UInt64 × UInt64) × TimebaseCache :=
  if cached ≠ 0 then (some (cached >>> 32, cached &&& 0xFFFFFFFF), cached)
  else if info.denom = 0 then (none, cached)
  else
    let packed := (info.numer.toUInt64 <<< 32) ||| info.denom.toUInt64
    (some (info.numer.toUInt64, info.denom.toUInt64), packed)

def preciseNowNs (info : MachTimebaseInfo) (absTime : UInt64) (cached : TimebaseCache) :
    Option UInt64 × TimebaseCache :=
  match getTimebaseInfo info cached with
  | (none, cached) => (none, cached)
  | (some (numer, denom), cached) =>
    if numer = denom then (some absTime, cached)
    else
      let intermediate := u128Mul absTime.toNat numer.toNat
      ((u128CheckedDiv intermediate denom.toNat).map UInt64.ofNat, cached)

end Main

/-! ## Readers with a cache -/

section readers
variable {σ ρ : Type}

/-- What a reader returns for the ticks of one call after the other. -/
def readings (read : UInt64 → σ → ρ × σ) : σ → List UInt64 → List ρ
  | _, [] => []
  | s, t :: ts => (read t s).1 :: readings read (read t s).2 ts

/-- In every state that `Cached` allows the reader answers as `f` does, and stays in them. -/
def Serves (read : UInt64 → σ → ρ × σ) (Cached : σ → Prop) (f : UInt64 → ρ) : Prop :=
  ∀ t s, Cached s → (read t s).1 = f t ∧ Cached (read t s).2

theorem Serves.readings_eq {read : UInt64 → σ → ρ × σ} {Cached : σ → Prop} {f : UInt64 → ρ}
    (h : Serves read Cached f) (ts : List UInt64) : ∀ s, Cached s → readings read s ts = ts.map f := by
  induction ts with
  | nil => exact fun _ _ => rfl
  | cons t ts ih =>
    intro s hs
    obtain ⟨hanswer, hnext⟩ := h t s hs
    show (read t s).1 :: readings read (read t s).2 ts = f t :: ts.map f
    rw [hanswer, ih _ hnext]

end readers

/-! ## The conversion -/

/-- The nanoseconds of a number of ticks: `floor(ticks * numer / denom)`, in 64 bits. -/
def wallNs (info : MachTimebaseInfo) (ticks : UInt64) : UInt64 :=
  UInt64.ofNat (ticks.toNat * info.numer.toNat / info.denom.toNat)

section conversion
variable {info : MachTimebaseInfo}

theorem wallNs_toNat (info : MachTimebaseInfo) (t : UInt64) :
    (wallNs info t).toNat = t.toNat * info.numer.toNat / info.denom.toNat % 2 ^ 64 :=
  UInt64.toNat_ofNat'

/-- Below 2^64 the clock does not go back. -/
theorem wallNs_mono {t t' : UInt64} (hle : t ≤ t')
    (hfits : t'.toNat * info.numer.toNat / info.denom.toNat < 2 ^ 64) :
    wallNs info t ≤ wallNs info t' := by
  have hnanos : t.toNat * info.numer.toNat / info.denom.toNat ≤
      t'.toNat * info.numer.toNat / info.denom.toNat :=
    Nat.div_le_div_right (Nat.mul_le_mul_right _ (UInt64.le_iff_toNat_le.mp hle))
  apply UInt64.le_iff_toNat_le.mpr
  rw [wallNs_toNat, wallNs_toNat, Nat.mod_eq_of_lt hfits,
    Nat.mod_eq_of_lt (Nat.lt_of_le_of_lt hnanos hfits)]
  exact hnanos

/-- No product of ticks and a numerator overflows. -/
theorem product_lt (t : UInt64) (n : UInt32) : t.toNat * n.toNat < 2 ^ 96 := by
  calc t.toNat * n.toNat
      ≤ (2 ^ 64 - 1) * n.toNat := Nat.mul_le_mul_right _ (Nat.le_sub_one_of_lt t.toNat_lt)
    _ ≤ (2 ^ 64 - 1) * (2 ^ 32 - 1) := Nat.mul_le_mul_left _ (Nat.le_sub_one_of_lt n.toNat_lt)
    _ < 2 ^ 96 := by decide

theorem u128Mul_product (t : UInt64) (n : UInt32) :
    u128Mul t.toNat n.toUInt64.toNat = t.toNat * n.toNat := by
  rw [UInt32.toNat_toUInt64]
  exact Nat.mod_eq_of_lt (Nat.lt_trans (product_lt t n) (by decide))

theorem u128SaturatingMul_product (t : UInt64) (n : UInt32) :
    u128SaturatingMul t.toNat n.toUInt64.toNat = t.toNat * n.toNat := by
  rw [UInt32.toNat_toUInt64]
  exact Nat.min_eq_left (Nat.le_of_lt (Nat.lt_trans (product_lt t n) (by decide)))

theorem denom_toNat_ne (h : info.denom ≠ 0) : info.denom.toNat ≠ 0 := by
  intro hzero
  exact h (UInt32.toNat_inj.mp hzero)

theorem u128CheckedDiv_denom (h : info.denom ≠ 0) (n : Nat) :
    u128CheckedDiv n info.denom.toUInt64.toNat = some (n / info.denom.toNat) := by
  rw [UInt32.toNat_toUInt64]
  exact if_neg (denom_toNat_ne h)

/-- The fast path: ticks are nanoseconds. -/
theorem wallNs_one (h : info.denom ≠ 0) (hone : info.numer.toUInt64 = info.denom.toUInt64)
    (t : UInt64) : wallNs info t = t := by
  have hsame : info.numer.toNat = info.denom.toNat := by
    rw [← UInt32.toNat_toUInt64, hone, UInt32.toNat_toUInt64]
  apply UInt64.toNat_inj.mp
  rw [wallNs_toNat, hsame, Nat.mul_div_cancel _ (Nat.pos_of_ne_zero (denom_toNat_ne h))]
  exact Nat.mod_eq_of_lt t.toNat_lt

/-! ## The three clocks -/

/-- The timebase as the caches hold it. -/
def MachTimebaseInfo.ratio (info : MachTimebaseInfo) : UInt64 × UInt64 :=
  (info.numer.toUInt64, info.denom.toUInt64)

theorem Runner.getTimebaseInfo_eq (h : info.denom ≠ 0) {s : Runner.Timebase}
    (hs : s = none ∨ s = some info.ratio) :
    Runner.getTimebaseInfo info s = (.ok info.ratio, some info.ratio) := by
  rcases hs with rfl | rfl
  · exact if_neg h
  · rfl

theorem Runner.wallNowNs_serves (h : info.denom ≠ 0) :
    Serves (Runner.wallNowNs info) (fun s => s = none ∨ s = some info.ratio)
      fun t => .ok (wallNs info t) := by
  intro t s hs
  unfold Runner.wallNowNs
  rw [Runner.getTimebaseInfo_eq h hs]
  dsimp only [MachTimebaseInfo.ratio]
  by_cases hone : info.numer.toUInt64 = info.denom.toUInt64
  · rw [if_pos hone, wallNs_one h hone]
    exact ⟨rfl, .inr rfl⟩
  · rw [if_neg hone, u128CheckedDiv_denom h, u128Mul_product]
    exact ⟨rfl, .inr rfl⟩

theorem Wait.getTimebaseInfo_eq (h : info.denom ≠ 0) {s : Wait.Timebase}
    (hs : s = none ∨ s = some (some info.ratio)) :
    Wait.getTimebaseInfo info s = (some info.ratio, some (some info.ratio)) := by
  rcases hs with rfl | rfl
  · unfold Wait.getTimebaseInfo
    rw [if_neg h]
    rfl
  · rfl

theorem Wait.wallNowNs_serves (h : info.denom ≠ 0) :
    Serves (Wait.wallNowNs info) (fun s => s = none ∨ s = some (some info.ratio)) (wallNs info) := by
  intro t s hs
  unfold Wait.wallNowNs
  rw [Wait.getTimebaseInfo_eq h hs]
  dsimp only [MachTimebaseInfo.ratio, Option.getD]
  by_cases hone : info.numer.toUInt64 = info.denom.toUInt64
  · rw [if_pos hone, wallNs_one h hone]
    exact ⟨rfl, .inr rfl⟩
  · rw [if_neg hone, u128CheckedDiv_denom h, u128SaturatingMul_product]
    exact ⟨rfl, .inr rfl⟩

/-- The word of `main.rs` holds both numbers. -/
def MachTimebaseInfo.packed (info : MachTimebaseInfo) : UInt64 :=
  (info.numer.toUInt64 <<< 32) ||| info.denom.toUInt64

theorem packed_toNat (info : MachTimebaseInfo) :
    info.packed.toNat = info.numer.toNat * 2 ^ 32 + info.denom.toNat := by
  have hshift : (info.numer.toUInt64 <<< 32).toNat = info.numer.toNat <<< 32 := by
    rw [UInt64.toNat_shiftLeft, UInt32.toNat_toUInt64]
    apply Nat.mod_eq_of_lt
    have hlt := info.numer.toNat_lt
    show info.numer.toNat <<< 32 < 2 ^ 64
    rw [Nat.shiftLeft_eq]
    omega
  calc info.packed.toNat
      = info.numer.toNat <<< 32 ||| info.denom.toNat := by
        rw [MachTimebaseInfo.packed, UInt64.toNat_or, hshift, UInt32.toNat_toUInt64]
    _ = info.numer.toNat <<< 32 + info.denom.toNat :=
        (Nat.shiftLeft_add_eq_or_of_lt info.denom.toNat_lt _).symm
    _ = info.numer.toNat * 2 ^ 32 + info.denom.toNat := by rw [Nat.shiftLeft_eq]

theorem packed_ne_zero (h : info.denom ≠ 0) : info.packed ≠ 0 := by
  intro hzero
  have hnat := packed_toNat info
  rw [hzero] at hnat
  have hpos := denom_toNat_ne h
  have hz : (0 : UInt64).toNat = 0 := rfl
  omega

theorem packed_numer (info : MachTimebaseInfo) : info.packed >>> 32 = info.numer.toUInt64 := by
  apply UInt64.toNat_inj.mp
  rw [UInt64.toNat_shiftRight, packed_toNat, UInt32.toNat_toUInt64, Nat.shiftRight_eq_div_pow]
  have := info.denom.toNat_lt
  show (info.numer.toNat * 2 ^ 32 + info.denom.toNat) / 2 ^ 32 = info.numer.toNat
  omega

theorem packed_denom (info : MachTimebaseInfo) :
    info.packed &&& 0xFFFFFFFF = info.denom.toUInt64 := by
  apply UInt64.toNat_inj.mp
  rw [UInt64.toNat_and, packed_toNat, UInt32.toNat_toUInt64]
  have hmask : (0xFFFFFFFF : UInt64).toNat = 2 ^ 32 - 1 := rfl
  rw [hmask, Nat.and_two_pow_sub_one_eq_mod]
  have := info.denom.toNat_lt
  omega

theorem Main.getTimebaseInfo_eq (h : info.denom ≠ 0) {s : Main.TimebaseCache}
    (hs : s = 0 ∨ s = info.packed) :
    Main.getTimebaseInfo info s = (some info.ratio, info.packed) := by
  rcases hs with rfl | rfl
  · unfold Main.getTimebaseInfo
    rw [if_neg (fun hne => hne rfl), if_neg h]
    rfl
  · unfold Main.getTimebaseInfo
    rw [if_pos (packed_ne_zero h), packed_numer, packed_denom]
    rfl

theorem Main.preciseNowNs_serves (h : info.denom ≠ 0) :
    Serves (Main.preciseNowNs info) (fun s => s = 0 ∨ s = info.packed)
      fun t => some (wallNs info t) := by
  intro t s hs
  unfold Main.preciseNowNs
  rw [Main.getTimebaseInfo_eq h hs]
  dsimp only [MachTimebaseInfo.ratio]
  by_cases hone : info.numer.toUInt64 = info.denom.toUInt64
  · rw [if_pos hone, wallNs_one h hone]
    exact ⟨rfl, .inr rfl⟩
  · rw [if_neg hone, u128CheckedDiv_denom h, u128Mul_product]
    exact ⟨rfl, .inr rfl⟩

/-- **The three copies of the wall clock agree**: with a valid timebase each of them returns
    `floor(ticks * numer / denom) mod 2^64` on every call, whatever the caches hold by then,
    and below 2^64 that value does not decrease. -/
theorem wall_clocks_agree (info : MachTimebaseInfo) (h : info.denom ≠ 0) :
    (∀ calls, readings (Runner.wallNowNs info) none calls =
      calls.map fun t => .ok (wallNs info t)) ∧
    (∀ calls, readings (Wait.wallNowNs info) none calls = calls.map (wallNs info)) ∧
    (∀ calls, readings (Main.preciseNowNs info) 0 calls =
      calls.map fun t => some (wallNs info t)) ∧
    (∀ t, (wallNs info t).toNat = t.toNat * info.numer.toNat / info.denom.toNat % 2 ^ 64) ∧
    ∀ t t', t ≤ t' → t'.toNat * info.numer.toNat / info.denom.toNat < 2 ^ 64 →
      wallNs info t ≤ wallNs info t' := by
  refine ⟨fun calls => ?_, fun calls => ?_, fun calls => ?_, wallNs_toNat info, ?_⟩
  · exact (Runner.wallNowNs_serves h).readings_eq calls _ (.inl rfl)
  · exact (Wait.wallNowNs_serves h).readings_eq calls _ (.inl rfl)
  · exact (Main.preciseNowNs_serves h).readings_eq calls _ (.inl rfl)
  · exact fun t t' hle hfits => wallNs_mono hle hfits

/-- An Intel timebase: three ticks are 125 ns. -/
theorem wall_clocks_agree_intel :
    readings (Runner.wallNowNs ⟨125, 3⟩) none [3, 3000] = [.ok 125, .ok 125000] ∧
    readings (Wait.wallNowNs ⟨125, 3⟩) none [3, 3000] = [125, 125000] ∧
    readings (Main.preciseNowNs ⟨125, 3⟩) 0 [3, 3000] = [some 125, some 125000] := by
  obtain ⟨hrunner, hwait, hmain, -, -⟩ := wall_clocks_agree ⟨125, 3⟩ (by decide)
  exact ⟨(hrunner _).trans (by rfl), (hwait _).trans (by rfl), (hmain _).trans (by rfl)⟩

/-! ## Without a timebase -/

theorem Runner.wallNowNs_refuses (h : info.denom = 0) :
    Serves (Runner.wallNowNs info) (fun s => s = none) fun _ => .error .timebaseError := by
  rintro t s rfl
  unfold Runner.wallNowNs Runner.getTimebaseInfo
  rw [if_pos h]
  exact ⟨rfl, rfl⟩

/-- Without a timebase the readers of `runner.rs` and `main.rs` fail on every call; that of
    `wait.rs` counts ticks. -/
theorem wall_clocks_invalid (h : info.denom = 0) :
    (∀ calls, readings (Runner.wallNowNs info) none calls =
      calls.map fun _ => .error .timebaseError) ∧
    (∀ calls, readings (Wait.wallNowNs info) none calls = calls) ∧
    ∀ calls, readings (Main.preciseNowNs info) 0 calls = calls.map fun _ => none := by
  have hwait : Serves (Wait.wallNowNs info) (fun s => s = none ∨ s = some none) id := by
    rintro t s (rfl | rfl)
    · unfold Wait.wallNowNs Wait.getTimebaseInfo
      rw [if_pos h]
      exact ⟨rfl, .inr rfl⟩
    · exact ⟨rfl, .inr rfl⟩
  have hmain : Serves (Main.preciseNowNs info) (fun s => s = 0) fun _ => none := by
    rintro t s rfl
    unfold Main.preciseNowNs Main.getTimebaseInfo
    rw [if_neg (fun hne => hne rfl), if_pos h]
    exact ⟨rfl, rfl⟩
  refine ⟨fun calls => (Runner.wallNowNs_refuses h).readings_eq calls _ rfl, fun calls => ?_,
    fun calls => hmain.readings_eq calls _ rfl⟩
  rw [hwait.readings_eq calls _ (.inl rfl), List.map_id]

end conversion
end Procguard
