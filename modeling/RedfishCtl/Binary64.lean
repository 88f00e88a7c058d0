import Mathlib.Tactic.Linarith
import Mathlib.Tactic.Positivity
import Mathlib.Tactic.FieldSimp

/-! IEEE 754 binary64 data with exact rational values. A finite datum has one significand/exponent
pair; every operation rounds the exact result once, ties to even. -/
namespace RedfishCtl.Binary64

def pow2 : Int → ℚ
  | .ofNat n => ((2^n : Nat) : ℚ)
  | .negSucc n => mkRat 1 (2^(n+1))

def Canonical (significand : Nat) (exponent : Int) : Prop :=
  significand < 2^53 ∧ -1074 ≤ exponent ∧ exponent ≤ 971 ∧
  (significand < 2^52 → exponent = -1074)
instance (m e) : Decidable (Canonical m e) := by unfold Canonical; infer_instance

structure Finite where
  negative : Bool
  significand : Nat
  exponent : Int
  canonical : Canonical significand exponent
  deriving DecidableEq, Repr

def Finite.magnitude (x : Finite) : ℚ := x.significand * pow2 x.exponent
def Finite.value (x : Finite) : ℚ := if x.negative then -x.magnitude else x.magnitude

inductive Datum where
  | finite (x : Finite)
  | infinity (negative : Bool)
  | nan
  deriving DecidableEq, Repr

def roundHalfEven (q : ℚ) : Int :=
  let below := q.floor
  let rest := q - below
  if rest < 1/2 then below
  else if 1/2 < rest then below + 1
  else if below % 2 = 0 then below else below + 1

def floorLog2 (q : ℚ) : Int :=
  let guess : Int := (Nat.log2 q.num.natAbs : Int) - Nat.log2 q.den
  if q < pow2 guess then guess - 1 else guess

/- The one rounding step: a significand that rounds up to 2^53 carries into the exponent, and an
exponent past 971 overflows to infinity. -/
def pack (negative : Bool) (significand : Nat) (exponent : Int) : Datum :=
  if h : Canonical significand exponent then .finite ⟨negative,significand,exponent,h⟩
  else if h : Canonical (significand/2) (exponent+1) then
    .finite ⟨negative,significand/2,exponent+1,h⟩
  else .infinity negative

def roundMagnitude (negative : Bool) (q : ℚ) : Datum :=
  if q = 0 then pack negative 0 (-1074) else
    let exponent := max (floorLog2 q - 52) (-1074)
    pack negative (roundHalfEven (q / pow2 exponent)).toNat exponent

def ofRat (q : ℚ) : Datum := if q < 0 then roundMagnitude true (-q) else roundMagnitude false q

def mul : Datum → Datum → Datum
  | .nan, _ => .nan
  | _, .nan => .nan
  | .infinity s, .infinity t => .infinity (s != t)
  | .infinity s, .finite y => if y.significand = 0 then .nan else .infinity (s != y.negative)
  | .finite x, .infinity t => if x.significand = 0 then .nan else .infinity (x.negative != t)
  | .finite x, .finite y => roundMagnitude (x.negative != y.negative) (x.magnitude * y.magnitude)

def add : Datum → Datum → Datum
  | .nan, _ => .nan
  | _, .nan => .nan
  | .infinity s, .infinity t => if s = t then .infinity s else .nan
  | .infinity s, .finite _ => .infinity s
  | .finite _, .infinity t => .infinity t
  | .finite x, .finite y =>
      if x.value + y.value = 0 then pack (x.negative && y.negative) 0 (-1074)
      else ofRat (x.value + y.value)

def lt : Datum → Datum → Bool
  | .nan, _ => false
  | _, .nan => false
  | .infinity s, .infinity t => s && !t
  | .infinity s, .finite _ => s
  | .finite _, .infinity t => !t
  | .finite x, .finite y => decide (x.value < y.value)

def eq : Datum → Datum → Bool
  | .nan, _ => false
  | _, .nan => false
  | .infinity s, .infinity t => s == t
  | .infinity _, .finite _ => false
  | .finite _, .infinity _ => false
  | .finite x, .finite y => decide (x.value = y.value)

def le (x y : Datum) : Bool := lt x y || eq x y

def zero : Datum := .finite ⟨false,0,-1074,by decide⟩

/- Conversion of an unbounded integer; none is the OverflowError. -/
def ofInt (n : Int) : Option Datum :=
  match ofRat n with
  | .infinity _ => none
  | x => some x

theorem pow2Pos (e : Int) : 0 < pow2 e := by
  cases e with
  | ofNat n => simp [pow2]
  | negSucc n =>
    simp only [pow2]
    rw [Rat.mkRat_eq_div]
    positivity

theorem pow2Zpow (e : Int) : pow2 e = (2 : ℚ)^e := by
  cases e with
  | ofNat n => simp [pow2]
  | negSucc n =>
    simp only [pow2, Rat.mkRat_eq_div, zpow_negSucc]
    push_cast
    rw [one_div]

theorem magnitudeNonneg (x : Finite) : 0 ≤ x.magnitude :=
  mul_nonneg (Nat.cast_nonneg _) (pow2Pos _).le

theorem packNotNan (negative significand exponent) : pack negative significand exponent ≠ .nan := by
  unfold pack
  split
  · simp
  · split <;> simp

theorem packNegative {negative significand exponent x}
    (h : pack negative significand exponent = .finite x) : x.negative = negative := by
  unfold pack at h
  split at h
  · cases h; rfl
  · split at h
    · cases h; rfl
    · contradiction

theorem roundMagnitudeNegative {negative q x}
    (h : roundMagnitude negative q = .finite x) : x.negative = negative := by
  unfold roundMagnitude at h
  split at h
  · exact packNegative h
  · exact packNegative h

theorem roundMagnitudeNotNan (negative q) : roundMagnitude negative q ≠ .nan := by
  unfold roundMagnitude
  split
  · exact packNotNan _ _ _
  · exact packNotNan _ _ _

theorem roundMagnitudeInfinity {negative q s}
    (h : roundMagnitude negative q = .infinity s) : s = negative := by
  have packed : ∀ m e, pack negative m e = .infinity s → s = negative := by
    intro m e hp
    unfold pack at hp
    split at hp
    · contradiction
    · split at hp
      · contradiction
      · cases hp; rfl
  unfold roundMagnitude at h
  split at h
  · exact packed _ _ h
  · exact packed _ _ h

theorem roundHalfEvenInt (n : Int) : roundHalfEven (n : ℚ) = n := by
  simp [roundHalfEven]

theorem roundHalfEvenMono {q : ℚ} {n : Int} (h : q ≤ n) : roundHalfEven q ≤ n := by
  have below : q.floor ≤ n := by
    have := Rat.floor_le q
    exact_mod_cast this.trans h
  unfold roundHalfEven
  dsimp only
  rcases below.lt_or_eq with less | same
  · split
    · exact below
    · split
      · omega
      · split <;> omega
  · -- the floor is already the bound, so nothing is left to round up
    have rest : q - q.floor ≤ 0 := by rw [same]; linarith
    have small : q - q.floor < 1/2 := by linarith
    rw [if_pos small]
    exact below

theorem roundHalfEvenNonneg {q} (h : 0 ≤ q) : 0 ≤ roundHalfEven q := by
  have below : 0 ≤ q.floor := Rat.le_floor_iff.mpr (by exact_mod_cast h)
  unfold roundHalfEven
  dsimp only
  split
  · exact below
  · split
    · omega
    · split <;> omega

theorem floorLog2Pow (k : Nat) : floorLog2 ((2^k : Nat) : ℚ) = k := by
  have num : ((2^k : Nat) : ℚ).num.natAbs = 2^k := by rw [Rat.num_natCast]; rfl
  have den : ((2^k : Nat) : ℚ).den = 1 := Rat.den_natCast _
  unfold floorLog2
  simp only [num, den, Nat.log2_two_pow]
  have one : Nat.log2 1 = 0 := by decide
  simp only [one, Nat.cast_zero, sub_zero]
  have same : pow2 (k : Int) = ((2^k : Nat) : ℚ) := rfl
  rw [same, if_neg (lt_irrefl _)]

theorem ofRatPow (k : Nat) : ofRat ((2^k : Int) : ℚ) = pack false (2^52) ((k : Int) - 52) := by
  have cast : (((2^k : Int)) : ℚ) = ((2^k : Nat) : ℚ) := by push_cast; rfl
  have positive : ¬ ((2^k : Nat) : ℚ) < 0 := not_lt.mpr (Nat.cast_nonneg _)
  have nonzero : ((2^k : Nat) : ℚ) ≠ 0 := by positivity
  have exponent : max ((k : Int) - 52) (-1074) = (k : Int) - 52 := by omega
  have scaled : ((2^k : Nat) : ℚ) / pow2 ((k : Int) - 52) = ((2^52 : Int) : ℚ) := by
    rw [pow2Zpow, zpow_sub₀ (by norm_num)]
    field_simp
    norm_num
  rw [cast, ofRat, if_neg positive, roundMagnitude, if_neg nonzero]
  simp only [floorLog2Pow, exponent, scaled, roundHalfEvenInt]
  rfl

theorem ofIntPow {k} (fits : k ≤ 1023) :
    ∃ x, ofInt (2^k) = some (.finite x) ∧ x.negative = false ∧ x.significand = 2^52 := by
  have canonical : Canonical (2^52) ((k : Int) - 52) :=
    ⟨by decide, by omega, by omega, fun h => absurd h (by decide)⟩
  refine ⟨⟨false,2^52,(k : Int) - 52,canonical⟩,?_,rfl,rfl⟩
  unfold ofInt
  rw [ofRatPow, pack, dif_pos canonical]

theorem ofIntPowOverflow {k} (wide : 1023 < k) : ofInt (2^k) = none := by
  have first : ¬ Canonical (2^52) ((k : Int) - 52) := fun h => by have := h.2.2.1; omega
  have carry : ¬ Canonical (2^52/2) ((k : Int) - 52 + 1) := fun h => by have := h.2.2.1; omega
  unfold ofInt
  rw [ofRatPow, pack, dif_neg first, dif_neg carry]

def Nonnegative : Datum → Prop
  | .finite x => x.negative = false
  | .infinity s => s = false
  | .nan => False

theorem roundMagnitudeNonnegative (q : ℚ) : Nonnegative (roundMagnitude false q) := by
  cases h : roundMagnitude false q with
  | finite x => exact roundMagnitudeNegative h
  | infinity s => exact roundMagnitudeInfinity h
  | nan => exact absurd h (roundMagnitudeNotNan _ _)

theorem positiveNonnegative {x} (h : lt zero x = true) : Nonnegative x := by
  cases x with
  | nan => simp [zero,lt] at h
  | infinity s => simpa [zero,lt,Nonnegative] using h
  | finite x =>
    by_contra negative
    have sign : x.negative = true := by simpa [Nonnegative] using negative
    have below : x.value ≤ 0 := by
      simp only [Finite.value,sign,if_true]
      linarith [magnitudeNonneg x]
    simp only [zero,lt,decide_eq_true_eq] at h
    have origin : (⟨false,0,-1074,by decide⟩ : Finite).value = 0 := by
      simp [Finite.value,Finite.magnitude]
    linarith

theorem valueNonneg {x : Finite} (h : x.negative = false) : 0 ≤ x.value := by
  simpa [Finite.value,h] using magnitudeNonneg x

theorem mulNonnegative {x y} (left : Nonnegative x) (sign : y.negative = false)
    (nonzero : y.significand ≠ 0) : Nonnegative (mul x (.finite y)) := by
  cases x with
  | nan => exact left
  | infinity s =>
    simp only [Nonnegative] at left
    simp [mul,nonzero,left,sign,Nonnegative]
  | finite x =>
    have same : x.negative = false := left
    simpa [mul,same,sign] using roundMagnitudeNonnegative (x.magnitude * y.magnitude)

end RedfishCtl.Binary64
