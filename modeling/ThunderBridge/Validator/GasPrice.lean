import Mathlib.Algebra.Order.Field.Rat
import Mathlib.Tactic.GCongr
import Mathlib.Tactic.Linarith
import Mathlib.Data.Int.ConditionallyCompleteOrder

/-!
# `Validator.GasPrice` — the gas price of a task

The validator keeps a table of three prices, from the oracle, the bridge contract or the configuration, and
`getPrice` picks one by the age of the task: `slow`, then `average`, then `fast`, then ever more. The first two are
decimal strings, from `fast` on the price is a `BN`; `BN.min` caps it.

`BN.min` asks `max.cmp(price) < 0`, and `cmp` looks at the signs first. A string has no sign, which makes the
maximum the greater of the two, and the string is returned as it is. So the cap holds, and the price rises with the
age, exactly when neither age is at a level whose string is above the maximum (`capped_rising_iff`). The table itself
rises with the speed if the answers of the oracle do (`updates_rising`).
-/

namespace ThunderBridge
namespace GasPrice

/-! ## The table -/

/-- `cachedGasPrice`: decimal strings, in wei. -/
structure GasPrices where
  slow : Nat
  average : Nat
  fast : Nat
  fixed : Option Nat
deriving DecidableEq, Repr

/-- `GAS_PRICE_BOUNDARIES.MIN`. -/
def MIN : ℚ := 1

def gasPriceWithinLimits (maxGasPriceLimit gasPrice : ℚ) : ℚ :=
  if gasPrice < MIN then MIN else if gasPrice > maxGasPriceLimit then maxGasPriceLimit else gasPrice

/-- The answer of the oracle, in gwei, but `fixed` in wei. -/
structure OracleJson where
  slow : Option ℚ
  average : Option ℚ
  fast : Option ℚ
  fixed : Option Nat

/-- One round of the loop of `fetchGasPriceFromOracle`; `toFixed` is `(gasPrice * 10 ** 9).toFixed(0)`. -/
def oraclePrice (toFixed : ℚ → Nat) (maxGasPriceLimit : ℚ) (price : Option ℚ) : Option Nat :=
  match price with
  | some price => if price < 0 then none else some (toFixed (gasPriceWithinLimits maxGasPriceLimit price))
  | none => none

def fetchGasPriceFromOracle (toFixed : ℚ → Nat) (maxGasPriceLimit : ℚ) (json : OracleJson) : Option GasPrices := do
  let slow ← oraclePrice toFixed maxGasPriceLimit json.slow
  let average ← oraclePrice toFixed maxGasPriceLimit json.average
  let fast ← oraclePrice toFixed maxGasPriceLimit json.fast
  pure ⟨slow, average, fast, json.fixed.filter (0 < ·)⟩

/-- `fetchGasPrice`, with what the oracle and the contract answer, if they do. -/
def fetchGasPrice (gasPriceFromOracle : Option GasPrices) (gasPriceFromBridgeContract : Option Nat) :
    Option GasPrices :=
  match gasPriceFromOracle, gasPriceFromBridgeContract with
  | none, none => none
  | none, some p => some ⟨p, p, p, none⟩
  | some oracle, none => some oracle
  | some oracle, some p => some ⟨max oracle.slow p, max oracle.average p, max oracle.fast p, oracle.fixed⟩

/-- The table that `start` begins with. -/
def fallback (GAS_PRICE_FALLBACK : Nat) : GasPrices :=
  ⟨GAS_PRICE_FALLBACK, GAS_PRICE_FALLBACK, GAS_PRICE_FALLBACK, none⟩

/-- One round of `start`, with what the oracle and the contract answer, if they do. -/
def update (toFixed : ℚ → Nat) (maxGasPriceLimit : ℚ) (cachedGasPrice : GasPrices)
    (answers : Option OracleJson × Option Nat) : GasPrices :=
  (fetchGasPrice (answers.1.bind (fetchGasPriceFromOracle toFixed maxGasPriceLimit)) answers.2).getD cachedGasPrice

/-! ## The price -/

/-- What `getPrice` hands to `BN.min`. -/
inductive Price where
  /-- A decimal string. -/
  | text (wei : Nat)
  /-- A `BN`. -/
  | big (wei : Int)
deriving DecidableEq, Repr

/-- The number that is read or printed. -/
def Price.wei : Price → Int
  | text wei => wei
  | big wei => wei

structure Config where
  speedType : String
  /-- `toWei(maxGasPriceLimit, 'gwei')`. -/
  maxGasPrice : Nat
  /-- `GAS_PRICE_BUMP_INTERVAL`, if it is set. -/
  bumpInterval : Option Nat
deriving DecidableEq, Repr

def getSpeedBase (speedType : String) : Nat :=
  match speedType with
  | "slow" => 0
  | "average" => 1
  | "fast" => 2
  | _ => 0

/-- `base + Math.floor(dt / interval)`. -/
inductive Speed where
  | level (n : Nat)
  | infinite
  | nan
deriving DecidableEq, Repr

def speed (config : Config) (dt : Nat) : Speed :=
  match config.bumpInterval with
  | none => .nan
  | some 0 => if dt = 0 then .nan else .infinite
  | some interval => .level (getSpeedBase config.speedType + dt / interval)

/-- `cmp` of a `BN` with a price; the signs are compared first. -/
structure Compares (cmp : Int → Price → Int) : Prop where
  big : ∀ a b : Int, cmp a (.big b) < 0 ↔ a < b
  /-- The sign of a string is undefined, and so not the one of a number that is not negative. -/
  text : ∀ (a : Int) (b : Nat), 0 ≤ a → cmp a (.text b) = 1

variable (cmp : Int → Price → Int)

/-- `BN.min` of a `BN` and a price, printed. -/
def BN.min (left : Int) (right : Price) : Int := if cmp left right < 0 then left else right.wei

/-- `fast - average`, or 10 gwei if that is not positive. -/
def diff (cachedGasPrice : GasPrices) : Int :=
  let diff : Int := cachedGasPrice.fast - cachedGasPrice.average
  if diff ≤ 0 then 10 * 10 ^ 9 else diff

def levelPrice (cachedGasPrice : GasPrices) : Nat → Price
  | 0 => .text cachedGasPrice.slow
  | 1 => .text cachedGasPrice.average
  | n + 2 => .big (cachedGasPrice.fast + diff cachedGasPrice * n)

/-- The price before the cap; `none` where `toBN` throws. -/
def gasPrice (cachedGasPrice : GasPrices) : Speed → Option Price
  | .level n => some (levelPrice cachedGasPrice n)
  | .infinite => none
  | .nan => some (.text 0)

/-- `getPrice` of a task of age `dt`. -/
def getPrice (config : Config) (cachedGasPrice : GasPrices) (dt : Nat) : Option Int :=
  match cachedGasPrice.fixed with
  | some fixed => some fixed
  | none => (gasPrice cachedGasPrice (speed config dt)).map (BN.min cmp config.maxGasPrice)

/-! ## The cap -/

variable {cmp} {config : Config} {cachedGasPrice : GasPrices}

theorem min_text (hcmp : Compares cmp) (a b : Nat) : BN.min cmp a (.text b) = b := by
  have hsign : ¬ cmp a (.text b) < 0 := by
    rw [hcmp.text a b (Int.natCast_nonneg a)]
    decide
  unfold BN.min
  rw [if_neg hsign]
  rfl

theorem min_big (hcmp : Compares cmp) (a b : Int) : BN.min cmp a (.big b) = min a b := by
  unfold BN.min
  by_cases hlt : a < b
  · rw [if_pos ((hcmp.big a b).mpr hlt), min_eq_left (Int.le_of_lt hlt)]
  · rw [if_neg (mt (hcmp.big a b).mp hlt), min_eq_right (Int.not_lt.mp hlt)]
    rfl

@[simp] theorem gasPrice_eq_none {s : Speed} : gasPrice cachedGasPrice s = none ↔ s = .infinite := by
  cases s <;> simp [gasPrice]

/-- If the level of that age has a string, it is not above the cap. -/
def TextCapped (config : Config) (cachedGasPrice : GasPrices) (dt : Nat) : Prop :=
  (speed config dt = .level 0 → cachedGasPrice.slow ≤ config.maxGasPrice) ∧
  (speed config dt = .level 1 → cachedGasPrice.average ≤ config.maxGasPrice)

/-- The cap holds exactly where the string is capped. -/
theorem min_le_iff (hcmp : Compares cmp) {dt : Nat} {price : Price}
    (hprice : gasPrice cachedGasPrice (speed config dt) = some price) :
    BN.min cmp config.maxGasPrice price ≤ config.maxGasPrice ↔ TextCapped config cachedGasPrice dt := by
  unfold TextCapped
  cases hspeed : speed config dt with
  | level n =>
      rw [hspeed] at hprice
      obtain rfl := Option.some.inj hprice
      match n with
      | 0 | 1 =>
          rw [levelPrice, min_text hcmp]
          simp
      | n + 2 =>
          rw [levelPrice, min_big hcmp]
          simp
  | infinite =>
      rw [hspeed] at hprice
      exact absurd hprice (by simp [gasPrice])
  | nan =>
      rw [hspeed] at hprice
      obtain rfl := Option.some.inj hprice
      rw [min_text hcmp]
      simp

theorem min_eq_of_le (hcmp : Compares cmp) {price : Price}
    (h : BN.min cmp config.maxGasPrice price ≤ config.maxGasPrice) :
    BN.min cmp config.maxGasPrice price = min (config.maxGasPrice : Int) price.wei := by
  cases price with
  | text wei =>
      rw [min_text hcmp] at h ⊢
      exact (min_eq_right h).symm
  | big wei => exact min_big hcmp _ _

/-! ## The bump -/

theorem diff_pos (cachedGasPrice : GasPrices) : 0 < diff cachedGasPrice := by
  unfold diff
  dsimp only
  split <;> omega

theorem levelPrice_mono (hslow : cachedGasPrice.slow ≤ cachedGasPrice.average)
    (haverage : cachedGasPrice.average ≤ cachedGasPrice.fast) :
    Monotone fun n => (levelPrice cachedGasPrice n).wei := by
  apply monotone_nat_of_le_succ
  intro n
  match n with
  | 0 => exact Int.ofNat_le.mpr hslow
  | 1 =>
      show (cachedGasPrice.average : Int) ≤ cachedGasPrice.fast + diff cachedGasPrice * (0 : Nat)
      omega
  | n + 2 =>
      have hbump := diff_pos cachedGasPrice
      show cachedGasPrice.fast + diff cachedGasPrice * n ≤ cachedGasPrice.fast + diff cachedGasPrice * (n + 1 : Nat)
      rw [Nat.cast_add, Int.mul_add]
      omega

/-- An older task has the higher speed, if both have one. -/
theorem speed_le {dt dt' : Nat} (hage : dt ≤ dt') :
    (∃ n n', n ≤ n' ∧ speed config dt = .level n ∧ speed config dt' = .level n') ∨
      speed config dt = .nan ∨ speed config dt' = .infinite := by
  unfold speed
  match config.bumpInterval with
  | none => exact Or.inr (Or.inl rfl)
  | some 0 =>
      rcases Nat.eq_zero_or_pos dt' with rfl | hpos
      · exact Or.inr (Or.inl (if_pos (Nat.le_zero.mp hage)))
      · exact Or.inr (Or.inr (if_neg (Nat.ne_of_gt hpos)))
  | some (n + 1) =>
      have hspeed := Nat.div_le_div_right (c := n + 1) hage
      exact Or.inl ⟨_, _, Nat.add_le_add_left hspeed _, rfl, rfl⟩

theorem nonneg_of_gasPrice {price : Price} {dt : Nat}
    (hprice : gasPrice cachedGasPrice (speed config dt) = some price) : 0 ≤ price.wei := by
  cases hspeed : speed config dt with
  | level n =>
      rw [hspeed] at hprice
      obtain rfl := Option.some.inj hprice
      match n with
      | 0 | 1 => exact Int.natCast_nonneg _
      | n + 2 =>
          have hbump := Int.mul_nonneg (Int.le_of_lt (diff_pos cachedGasPrice)) (Int.natCast_nonneg n)
          exact Int.add_nonneg (Int.natCast_nonneg _) hbump
  | infinite =>
      rw [hspeed] at hprice
      exact absurd hprice (by simp [gasPrice])
  | nan =>
      rw [hspeed] at hprice
      obtain rfl := Option.some.inj hprice
      exact Int.le_refl 0

/-- **The cap and the bump.** For two ages of a task, neither price is above the cap and the older one is not
    lower, exactly when no string of the two levels is above the cap. -/
theorem capped_rising_iff (hcmp : Compares cmp) (hfixed : cachedGasPrice.fixed = none)
    (hslow : cachedGasPrice.slow ≤ cachedGasPrice.average)
    (haverage : cachedGasPrice.average ≤ cachedGasPrice.fast) {dt dt' : Nat} (hage : dt ≤ dt') :
    ((∀ p, getPrice cmp config cachedGasPrice dt = some p → p ≤ config.maxGasPrice) ∧
      (∀ p, getPrice cmp config cachedGasPrice dt' = some p → p ≤ config.maxGasPrice) ∧
      ∀ p p', getPrice cmp config cachedGasPrice dt = some p → getPrice cmp config cachedGasPrice dt' = some p' →
        p ≤ p') ↔
      TextCapped config cachedGasPrice dt ∧ TextCapped config cachedGasPrice dt' := by
  have hget (t : Nat) : getPrice cmp config cachedGasPrice t =
      (gasPrice cachedGasPrice (speed config t)).map (BN.min cmp config.maxGasPrice) := by
    unfold getPrice
    rw [hfixed]
  have hcap (t : Nat) : (∀ p, getPrice cmp config cachedGasPrice t = some p → p ≤ config.maxGasPrice) ↔
      TextCapped config cachedGasPrice t := by
    rw [hget]
    cases hprice : gasPrice cachedGasPrice (speed config t) with
    | none =>
        have hinfinite := gasPrice_eq_none.mp hprice
        simp [TextCapped, hinfinite]
    | some price =>
        rw [← min_le_iff hcmp hprice]
        simp
  rw [hcap, ← and_assoc, hcap]
  refine and_iff_left_of_imp ?_
  rintro ⟨hdt, hdt'⟩ p p' hp hp'
  rw [hget, Option.map_eq_some_iff] at hp hp'
  obtain ⟨price, hprice, rfl⟩ := hp
  obtain ⟨price', hprice', rfl⟩ := hp'
  rw [min_eq_of_le hcmp ((min_le_iff hcmp hprice).mpr hdt), min_eq_of_le hcmp ((min_le_iff hcmp hprice').mpr hdt')]
  apply min_le_min_left
  rcases speed_le hage with ⟨n, n', hn, hspeed, hspeed'⟩ | hnan | hinfinite
  · rw [hspeed] at hprice
    rw [hspeed'] at hprice'
    obtain rfl := Option.some.inj hprice
    obtain rfl := Option.some.inj hprice'
    exact levelPrice_mono hslow haverage hn
  · rw [hnan] at hprice
    obtain rfl := Option.some.inj hprice
    exact nonneg_of_gasPrice hprice'
  · rw [hinfinite] at hprice'
    exact absurd hprice' (by simp [gasPrice])

/-- `cmp` of `bn.js` for numbers that are not negative. -/
def signedCmp (a : Int) : Price → Int
  | .big b => if a < b then -1 else if a = b then 0 else 1
  | .text _ => 1

theorem signedCmp_compares : Compares signedCmp where
  big a b := by
    show (if a < b then (-1 : Int) else if a = b then 0 else 1) < 0 ↔ a < b
    split
    · simp_all
    · split <;> simp_all
  text _ _ _ := rfl

/-- Prices of 1, 3 and 7 gwei under a cap of 300: a new task, and one four intervals old. -/
theorem capped_rising_bumped :
    let config : Config := ⟨"slow", 300 * 10 ^ 9, some 60000⟩
    let table : GasPrices := ⟨10 ^ 9, 3 * 10 ^ 9, 7 * 10 ^ 9, none⟩
    getPrice signedCmp config table 0 = some (10 ^ 9) ∧ getPrice signedCmp config table 250000 = some (15 * 10 ^ 9) ∧
      ∀ p, getPrice signedCmp config table 250000 = some p → p ≤ config.maxGasPrice := by
  refine ⟨by decide +kernel, by decide +kernel, ?_⟩
  have hcapped (dt : Nat) : TextCapped ⟨"slow", 300 * 10 ^ 9, some 60000⟩ ⟨10 ^ 9, 3 * 10 ^ 9, 7 * 10 ^ 9, none⟩ dt :=
    ⟨fun _ => by decide, fun _ => by decide⟩
  exact ((capped_rising_iff signedCmp_compares rfl (by decide) (by decide) (Nat.zero_le 250000)).mpr
    ⟨hcapped 0, hcapped 250000⟩).2.1

/-- A fallback of 100 gwei under a cap of 50: a new task pays 100 gwei, and one two intervals old 50. -/
theorem cap_passed_by_string :
    let config : Config := ⟨"slow", 50 * 10 ^ 9, some 60000⟩
    Compares signedCmp ∧ getPrice signedCmp config (fallback (100 * 10 ^ 9)) 0 = some (100 * 10 ^ 9) ∧
      getPrice signedCmp config (fallback (100 * 10 ^ 9)) 120000 = some (50 * 10 ^ 9) :=
  ⟨signedCmp_compares, by decide +kernel, by decide +kernel⟩

/-! ## The tables -/

theorem gasPriceWithinLimits_le {maxGasPriceLimit gasPrice : ℚ} (hmax : MIN ≤ maxGasPriceLimit) :
    gasPriceWithinLimits maxGasPriceLimit gasPrice ≤ maxGasPriceLimit := by
  unfold gasPriceWithinLimits
  split
  · exact hmax
  · split
    · exact le_refl _
    · exact le_of_not_gt ‹_›

/-- What the oracle alone puts into the table is capped. -/
theorem oracle_textCapped {toFixed : ℚ → Nat} {maxGasPriceLimit : ℚ} {json : OracleJson}
    (htoFixed : Monotone toFixed) (hmax : MIN ≤ maxGasPriceLimit)
    (hconfig : toFixed maxGasPriceLimit ≤ config.maxGasPrice)
    (h : fetchGasPriceFromOracle toFixed maxGasPriceLimit json = some cachedGasPrice) (dt : Nat) :
    TextCapped config cachedGasPrice dt := by
  have hprice {price : Option ℚ} {wei : Nat} (hwei : oraclePrice toFixed maxGasPriceLimit price = some wei) :
      wei ≤ config.maxGasPrice := by
    unfold oraclePrice at hwei
    split at hwei
    · split at hwei
      · exact absurd hwei (by simp)
      · obtain rfl := Option.some.inj hwei
        exact le_trans (htoFixed (gasPriceWithinLimits_le hmax)) hconfig
    · exact absurd hwei (by simp)
  simp only [fetchGasPriceFromOracle, Option.bind_eq_bind, Option.bind_eq_some_iff, Option.pure_def,
    Option.some.injEq] at h
  obtain ⟨slow, hslow, average, haverage, fast, _, rfl⟩ := h
  exact ⟨fun _ => hprice hslow, fun _ => hprice haverage⟩

/-- A table that rises with the speed, and has no fixed price. -/
structure Rising (cachedGasPrice : GasPrices) : Prop where
  fixed : cachedGasPrice.fixed = none
  slow : cachedGasPrice.slow ≤ cachedGasPrice.average
  average : cachedGasPrice.average ≤ cachedGasPrice.fast

/-- The same of an answer of the oracle. -/
structure OracleJson.Rising (json : OracleJson) : Prop where
  fixed : json.fixed = none
  slow : ∀ slow ∈ json.slow, ∀ average ∈ json.average, slow ≤ average
  average : ∀ average ∈ json.average, ∀ fast ∈ json.fast, average ≤ fast

theorem gasPriceWithinLimits_mono {maxGasPriceLimit : ℚ} (hmax : MIN ≤ maxGasPriceLimit) :
    Monotone (gasPriceWithinLimits maxGasPriceLimit) := by
  intro p q hpq
  unfold gasPriceWithinLimits
  split_ifs <;> linarith

theorem oraclePrice_le {toFixed : ℚ → Nat} {maxGasPriceLimit : ℚ} (htoFixed : Monotone toFixed)
    (hmax : MIN ≤ maxGasPriceLimit) {p q : Option ℚ} {low high : Nat} (hpq : ∀ x ∈ p, ∀ y ∈ q, x ≤ y)
    (hlow : oraclePrice toFixed maxGasPriceLimit p = some low)
    (hhigh : oraclePrice toFixed maxGasPriceLimit q = some high) : low ≤ high := by
  cases p with
  | none => cases hlow
  | some x =>
      cases q with
      | none => cases hhigh
      | some y =>
          simp only [oraclePrice, Option.ite_none_left_eq_some, Option.some.injEq] at hlow hhigh
          obtain ⟨_, rfl⟩ := hlow
          obtain ⟨_, rfl⟩ := hhigh
          exact htoFixed (gasPriceWithinLimits_mono hmax (hpq x rfl y rfl))

theorem oracle_rising {toFixed : ℚ → Nat} {maxGasPriceLimit : ℚ} {json : OracleJson} (htoFixed : Monotone toFixed)
    (hmax : MIN ≤ maxGasPriceLimit) (hjson : json.Rising)
    (h : fetchGasPriceFromOracle toFixed maxGasPriceLimit json = some cachedGasPrice) : Rising cachedGasPrice := by
  simp only [fetchGasPriceFromOracle, Option.bind_eq_bind, Option.bind_eq_some_iff, Option.pure_def,
    Option.some.injEq] at h
  obtain ⟨slow, hslow, average, haverage, fast, hfast, rfl⟩ := h
  refine ⟨?_, oraclePrice_le htoFixed hmax hjson.slow hslow haverage,
    oraclePrice_le htoFixed hmax hjson.average haverage hfast⟩
  rw [hjson.fixed]
  rfl

theorem fetchGasPrice_rising {oracle : Option GasPrices} {contract : Option Nat} (horacle : ∀ t ∈ oracle, Rising t)
    (h : fetchGasPrice oracle contract = some cachedGasPrice) : Rising cachedGasPrice := by
  match oracle, contract with
  | none, none => cases h
  | none, some p =>
      obtain rfl := Option.some.inj h
      exact ⟨rfl, le_refl p, le_refl p⟩
  | some oracle, none => exact horacle _ h
  | some oracle, some p =>
      obtain rfl := Option.some.inj h
      have hrising := horacle oracle rfl
      exact ⟨hrising.fixed, max_le_max_right p hrising.slow, max_le_max_right p hrising.average⟩

/-- **The table at any time** is as `getPrice` needs it to keep its prices capped and rising, if the answers of the
    oracle rise with the speed and name no fixed price. -/
theorem updates_rising {toFixed : ℚ → Nat} {maxGasPriceLimit : ℚ} (htoFixed : Monotone toFixed)
    (hmax : MIN ≤ maxGasPriceLimit) {answers : List (Option OracleJson × Option Nat)}
    (hanswers : ∀ a ∈ answers, ∀ json ∈ a.1, json.Rising) (GAS_PRICE_FALLBACK : Nat) :
    Rising (answers.foldl (update toFixed maxGasPriceLimit) (fallback GAS_PRICE_FALLBACK)) := by
  have hround : ∀ cachedGasPrice a, Rising cachedGasPrice → (∀ json ∈ a.1, json.Rising) →
      Rising (update toFixed maxGasPriceLimit cachedGasPrice a) := by
    intro cachedGasPrice a hcached ha
    unfold update
    cases hfetched : fetchGasPrice (a.1.bind (fetchGasPriceFromOracle toFixed maxGasPriceLimit)) a.2 with
    | none => exact hcached
    | some table =>
        refine fetchGasPrice_rising ?_ hfetched
        intro t ht
        obtain ⟨json, hjson, hfetch⟩ := Option.bind_eq_some_iff.mp ht
        exact oracle_rising htoFixed hmax (ha json hjson) hfetch
  suffices hall : ∀ cachedGasPrice, Rising cachedGasPrice →
      Rising (answers.foldl (update toFixed maxGasPriceLimit) cachedGasPrice) from
    hall _ ⟨rfl, le_refl _, le_refl _⟩
  induction answers with
  | nil => exact fun _ hcached => hcached
  | cons a answers ih =>
      obtain ⟨ha, hrest⟩ := List.forall_mem_cons.mp hanswers
      exact fun cachedGasPrice hcached => ih hrest _ (hround cachedGasPrice a hcached ha)

end GasPrice
end ThunderBridge
