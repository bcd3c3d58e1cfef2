import Mathlib.Data.List.Range
import ThunderBridge.Lib.Calls

/-!
# `Validator.HttpRetryProvider` — requests over several endpoints

`send` asks the endpoints one after the other, from the one that answered last on, until one answers. When all of
them fail it waits and starts again where it started, as often as `promise-retry` has it, which is a parameter here.
The callback is called within the `try`: when it throws, it is called once more, with what it threw.

Any number of requests are under way at once, and all of them read and write `currentIndex`. `send` saves it before it
waits for anything, so what the others do moves only the start of later requests (`sends_of_run`): the endpoints
that a request asks are the next ones in turn, and it fails only after each of them failed in every attempt.
-/

namespace ThunderBridge

/-- What a provider is made with. -/
structure RetryOptions where
  urls : List String
  retries : Nat
  /-- Without endpoints the constructor throws. -/
  valid : urls ≠ []

/-- `promise-retry`: whether it calls its function once more, given the option `retries` and how often the function
    has failed. -/
abbrev PromiseRetry := Nat → Nat → Bool

/-- It retries as often as the option says. -/
def PromiseRetry.Lawful (again : PromiseRetry) : Prop :=
  ∀ retries failed, again retries failed = true ↔ failed ≤ retries

namespace HttpRetryProvider

/-- What the callback is called with when it gets no result. -/
inductive Failure where
  /-- The errors of the last attempt. -/
  | allUrls (errors : List String)
  /-- What the callback itself threw. -/
  | thrown (e : String)
deriving DecidableEq, Repr

/-- Where a call of `send` is. -/
inductive Phase (R : Type) where
  /-- `trySend` waits for the endpoint at `index`; `count` endpoints failed in this attempt. -/
  | fetching (attempt count index : Nat) (errors : List String)
  /-- `promiseRetry` waits before the next attempt. -/
  | waiting (attempt : Nat)
  /-- `trySend` returned. -/
  | returned (result : R) (index : Nat)
  /-- `callback(null, result)`, and what it threw if it did. -/
  | answered (result : R) (thrown : Option String)
  /-- `callback(e)`, with the errors of the last attempt. -/
  | failed (errors : List String)
deriving DecidableEq, Repr

/-- What the callback was called with, one call after the other. -/
def Phase.called {R : Type} : Phase R → List (Except Failure R)
  | .answered result none => [.ok result]
  | .answered result (some e) => [.ok result, .error (.thrown e)]
  | .failed errors => [.error (.allUrls errors)]
  | .fetching _ _ _ _ | .waiting _ | .returned _ _ => []

/-- A call of `send`; `fetched` is a ghost. -/
structure Send (P R : Type) where
  payload : P
  /-- The `currentIndex` it saved. -/
  initialIndex : Nat
  phase : Phase R
  /-- The endpoints it asked, and what they answered. -/
  fetched : List (Nat × Except String R)

end HttpRetryProvider

/-- A provider, and the calls of `send` so far. -/
structure HttpRetryProvider (P R : Type) where
  currentIndex : Nat
  sends : List (HttpRetryProvider.Send P R)

namespace HttpRetryProvider

variable {P R : Type}

/-! ## The source -/

/-- The body of the loop of `trySend`, and what `promiseRetry` does when the loop ends. -/
def Send.fetch (again : PromiseRetry) (c : RetryOptions) (s : Send P R) (outcome : Except String R) :
    Option (Send P R) :=
  match s.phase with
  | .fetching attempt count index errors =>
      let s := { s with fetched := s.fetched ++ [(index, outcome)] }
      match outcome with
      | .ok result => some { s with phase := .returned result index }
      | .error e =>
          if count + 1 < c.urls.length then
            some { s with phase := .fetching attempt (count + 1) ((index + 1) % c.urls.length) (errors ++ [e]) }
          else if again c.retries (attempt + 1) then some { s with phase := .waiting (attempt + 1) }
          else some { s with phase := .failed (errors ++ [e]) }
  | _ => none

/-- `trySend` is called again, with the index that was saved. -/
def Send.retry (s : Send P R) : Option (Send P R) :=
  match s.phase with
  | .waiting attempt => some { s with phase := .fetching attempt 0 s.initialIndex [] }
  | _ => none

/-- What may happen to a provider. -/
inductive Input (P R : Type) where
  | send (payload : P)
  /-- The endpoint that the `k`-th call waits for answers, or it does not. -/
  | fetch (k : Nat) (outcome : Except String R)
  | retry (k : Nat)
  /-- The `k`-th call goes on after `trySend` returned; its callback may throw. -/
  | resume (k : Nat) (thrown : Option String)

/-- One step; `none` where the input does not fit the state. -/
def step (again : PromiseRetry) (c : RetryOptions) (p : HttpRetryProvider P R) :
    Input P R → Option (HttpRetryProvider P R)
  | .send payload =>
      some { p with sends := p.sends ++ [⟨payload, p.currentIndex, .fetching 0 0 p.currentIndex [], []⟩] }
  | .fetch k outcome => do
      let s ← p.sends[k]?
      let s' ← s.fetch again c outcome
      pure { p with sends := p.sends.set k s' }
  | .retry k => do
      let s ← p.sends[k]?
      let s' ← s.retry
      pure { p with sends := p.sends.set k s' }
  | .resume k thrown => do
      let s ← p.sends[k]?
      match s.phase with
      | .returned result index =>
          some { currentIndex := index, sends := p.sends.set k { s with phase := .answered result thrown } }
      | _ => none

/-- A new provider. -/
def create : HttpRetryProvider P R := ⟨0, []⟩

def Step (again : PromiseRetry) (c : RetryOptions) (p p' : HttpRetryProvider P R) : Prop :=
  ∃ input, step again c p input = some p'

/-- Everything that may happen after the provider was made. -/
def Run (again : PromiseRetry) (c : RetryOptions) (p : HttpRetryProvider P R) : Prop :=
  Relation.ReflTransGen (Step again c) create p

/-! ## One call -/

variable {again : PromiseRetry} {c : RetryOptions} {p p' : HttpRetryProvider P R} {s s' : Send P R}

theorem urls_pos (c : RetryOptions) : 0 < c.urls.length := List.length_pos_iff.mpr c.valid

/-- Everything that was fetched failed. -/
def AllFailed (fetched : List (Nat × Except String R)) : Prop := ∀ x ∈ fetched, ∃ e, x.2 = .error e

theorem AllFailed.append {fetched : List (Nat × Except String R)} (h : AllFailed fetched) (index : Nat)
    (e : String) : AllFailed (fetched ++ [(index, .error e)]) := by
  intro x hx
  rcases List.mem_append.mp hx with hold | hnew
  · exact h x hold
  · rw [List.mem_singleton.mp hnew]
    exact ⟨e, rfl⟩

/-- What the phase of a call says about the endpoints it asked; `i` is the index it saved. -/
def Phase.Fits (c : RetryOptions) (i : Nat) (fetched : List (Nat × Except String R)) : Phase R → Prop
  | .fetching attempt count index errors =>
      AllFailed fetched ∧ fetched.length = attempt * c.urls.length + count ∧ attempt ≤ c.retries ∧
        count < c.urls.length ∧ index = (i + fetched.length) % c.urls.length ∧
        (fetched.drop (attempt * c.urls.length)).map Prod.snd = errors.map .error
  | .waiting attempt =>
      AllFailed fetched ∧ fetched.length = attempt * c.urls.length ∧ 0 < attempt ∧ attempt ≤ c.retries
  | .returned result index =>
      index < c.urls.length ∧ ∃ before, fetched = before ++ [(index, .ok result)] ∧ AllFailed before ∧
        before.length < (c.retries + 1) * c.urls.length
  | .answered result _ =>
      ∃ before index, fetched = before ++ [(index, .ok result)] ∧ AllFailed before ∧
        before.length < (c.retries + 1) * c.urls.length
  | .failed errors =>
      AllFailed fetched ∧ fetched.length = (c.retries + 1) * c.urls.length ∧
        (fetched.drop (c.retries * c.urls.length)).map Prod.snd = errors.map .error

/-- A call asks the endpoints in turn, from the one it saved on, until one answers. -/
structure Send.InTurn (c : RetryOptions) (s : Send P R) : Prop where
  initial : s.initialIndex < c.urls.length
  asked : s.fetched.map Prod.fst =
    (List.range s.fetched.length).map fun t => (s.initialIndex + t) % c.urls.length
  fits : s.phase.Fits c s.initialIndex s.fetched

theorem Send.inTurn_new {payload : P} {i : Nat} (hi : i < c.urls.length) :
    Send.InTurn c (⟨payload, i, .fetching 0 0 i [], []⟩ : Send P R) := by
  refine ⟨hi, rfl, ?_, ?_, Nat.zero_le _, urls_pos c, ?_, ?_⟩
  · intro x hx
    exact absurd hx List.not_mem_nil
  · simp
  · exact (Nat.mod_eq_of_lt hi).symm
  · simp

theorem asked_append {i n index : Nat} {fetched : List (Nat × Except String R)} (outcome : Except String R)
    (hasked : fetched.map Prod.fst = (List.range fetched.length).map fun t => (i + t) % n)
    (hindex : index = (i + fetched.length) % n) :
    (fetched ++ [(index, outcome)]).map Prod.fst =
      (List.range (fetched ++ [(index, outcome)]).length).map fun t => (i + t) % n := by
  rw [List.map_append, hasked, List.length_append, List.length_singleton, List.range_succ, List.map_append, hindex]
  rfl

/-- The answer of an endpoint. -/
theorem Send.InTurn.fetch (hagain : again.Lawful) (hs : s.InTurn c) {outcome : Except String R}
    (h : s.fetch again c outcome = some s') : s'.InTurn c ∧ s'.initialIndex = s.initialIndex := by
  obtain ⟨payload, i, phase, fetched⟩ := s
  obtain ⟨hinitial, hasked, hfits⟩ := hs
  cases phase with
  | waiting _ | returned _ _ | answered _ _ | failed _ => exact absurd h (by simp [Send.fetch])
  | fetching attempt count index errors =>
      obtain ⟨hfailed, hlen, hattempt, hcount, hindex, herrors⟩ := hfits
      have hasked' := asked_append outcome hasked hindex
      have hround : attempt * c.urls.length ≤ fetched.length := by
        rw [hlen]
        exact Nat.le_add_right _ _
      cases outcome with
      | ok result =>
          obtain rfl := Option.some.inj h
          refine ⟨⟨hinitial, hasked', ?_, fetched, rfl, hfailed, ?_⟩, rfl⟩
          · rw [hindex]
            exact Nat.mod_lt _ (urls_pos c)
          · calc fetched.length = attempt * c.urls.length + count := hlen
              _ < attempt * c.urls.length + c.urls.length := Nat.add_lt_add_left hcount _
              _ = (attempt + 1) * c.urls.length := (Nat.succ_mul _ _).symm
              _ ≤ (c.retries + 1) * c.urls.length := Nat.mul_le_mul_right _ (Nat.succ_le_succ hattempt)
      | error e =>
          have hfailed' := hfailed.append index e
          have herrors' : ((fetched ++ [(index, Except.error e)]).drop (attempt * c.urls.length)).map Prod.snd =
              (errors ++ [e]).map Except.error := by
            rw [List.drop_append_of_le_length hround, List.map_append, herrors, List.map_append]
            rfl
          simp only [Send.fetch] at h
          split at h
          · rename_i hmore
            obtain rfl := Option.some.inj h
            refine ⟨⟨hinitial, hasked', hfailed', ?_, hattempt, hmore, ?_, herrors'⟩, rfl⟩
            · rw [List.length_append, List.length_singleton, hlen, Nat.add_assoc]
            · rw [hindex, Nat.mod_add_mod, List.length_append, List.length_singleton, Nat.add_assoc]
          · rename_i hlast
            -- the last endpoint of the attempt
            have hall : (fetched ++ [(index, Except.error e)]).length = (attempt + 1) * c.urls.length := by
              rw [List.length_append, List.length_singleton, hlen, Nat.succ_mul]
              omega
            split at h
            · rename_i hretry
              obtain rfl := Option.some.inj h
              exact ⟨⟨hinitial, hasked', hfailed', hall, Nat.succ_pos _, (hagain _ _).mp hretry⟩, rfl⟩
            · rename_i hretry
              obtain rfl := Option.some.inj h
              have hend : attempt = c.retries :=
                Nat.le_antisymm hattempt (Nat.not_lt.mp fun hlt => hretry ((hagain _ _).mpr hlt))
              subst hend
              exact ⟨⟨hinitial, hasked', hfailed', hall, herrors'⟩, rfl⟩

/-- The next attempt starts where the first one did. -/
theorem Send.InTurn.retry (hs : s.InTurn c) (h : s.retry = some s') :
    s'.InTurn c ∧ s'.initialIndex = s.initialIndex := by
  obtain ⟨payload, i, phase, fetched⟩ := s
  obtain ⟨hinitial, hasked, hfits⟩ := hs
  cases phase with
  | fetching _ _ _ _ | returned _ _ | answered _ _ | failed _ => exact absurd h (by simp [Send.retry])
  | waiting attempt =>
      obtain ⟨hfailed, hlen, _, hattempt⟩ := hfits
      obtain rfl := Option.some.inj h
      refine ⟨⟨hinitial, hasked, hfailed, hlen, hattempt, urls_pos c, ?_, ?_⟩, rfl⟩
      · show i = (i + fetched.length) % c.urls.length
        rw [hlen, Nat.add_mul_mod_self_right, Nat.mod_eq_of_lt hinitial]
      · show (fetched.drop _).map Prod.snd = []
        rw [List.drop_eq_nil_of_le (Nat.le_of_eq hlen), List.map_nil]

/-! ## All of them -/

/-- Every call goes in turn, and `currentIndex` is where one was answered, if any was. -/
structure Sound (c : RetryOptions) (p : HttpRetryProvider P R) : Prop where
  current : p.currentIndex < c.urls.length
  latest : p.currentIndex = 0 ∨ ∃ s ∈ p.sends, ∃ result, (p.currentIndex, .ok result) ∈ s.fetched
  inTurn : ∀ s ∈ p.sends, s.InTurn c

theorem sound_create (c : RetryOptions) : Sound c (create : HttpRetryProvider P R) := by
  refine ⟨urls_pos c, Or.inl rfl, ?_⟩
  intro s hs
  exact absurd hs List.not_mem_nil

/-- A call that goes on does not forget what it fetched. -/
theorem Send.fetch_fetched {outcome : Except String R} (h : s.fetch again c outcome = some s') :
    ∀ x ∈ s.fetched, x ∈ s'.fetched := by
  obtain ⟨payload, i, phase, fetched⟩ := s
  intro x hx
  cases phase with
  | waiting _ | returned _ _ | answered _ _ | failed _ => exact absurd h (by simp [Send.fetch])
  | fetching attempt count index errors =>
      have hkept : x ∈ fetched ++ [(index, outcome)] := List.mem_append_left _ hx
      cases outcome with
      | ok result =>
          obtain rfl := Option.some.inj h
          exact hkept
      | error e =>
          simp only [Send.fetch] at h
          split at h
          · obtain rfl := Option.some.inj h
            exact hkept
          · split at h
            · obtain rfl := Option.some.inj h
              exact hkept
            · obtain rfl := Option.some.inj h
              exact hkept

theorem Send.retry_fetched (h : s.retry = some s') : s'.fetched = s.fetched := by
  unfold Send.retry at h
  split at h
  · obtain rfl := Option.some.inj h
    rfl
  · exact absurd h (by simp)

/-- One call goes on, and the others stay as they are. -/
theorem Sound.set (hp : Sound c p) {k : Nat} (hk : p.sends[k]? = some s) (hs' : s'.InTurn c)
    (hkept : ∀ x ∈ s.fetched, x ∈ s'.fetched) : Sound c { p with sends := p.sends.set k s' } := by
  obtain ⟨hcurrent, hlatest, hinTurn⟩ := hp
  have hlt : k < p.sends.length := (List.getElem?_eq_some_iff.mp hk).1
  refine ⟨hcurrent, ?_, ?_⟩
  · rcases hlatest with hzero | ⟨t, ht, result, hresult⟩
    · exact Or.inl hzero
    · right
      obtain ⟨j, hj⟩ := List.mem_iff_getElem?.mp ht
      by_cases hkj : k = j
      · subst hkj
        obtain rfl : s = t := Option.some.inj (hk.symm.trans hj)
        exact ⟨s', List.mem_set hlt s', result, hkept _ hresult⟩
      · refine ⟨t, List.mem_iff_getElem?.mpr ⟨j, ?_⟩, result, hresult⟩
        rw [List.getElem?_set_ne hkj, hj]
  · intro t ht
    rcases List.mem_or_eq_of_mem_set ht with hold | rfl
    · exact hinTurn t hold
    · exact hs'

theorem step_sound (hagain : again.Lawful) (h : Step again c p p') (hp : Sound c p) : Sound c p' := by
  obtain ⟨input, h⟩ := h
  cases input with
  | send payload =>
      obtain rfl := Option.some.inj h
      refine ⟨hp.current, ?_, ?_⟩
      · rcases hp.latest with hzero | ⟨t, ht, hresult⟩
        · exact Or.inl hzero
        · exact Or.inr ⟨t, List.mem_append_left _ ht, hresult⟩
      · intro t ht
        rcases List.mem_append.mp ht with hold | hnew
        · exact hp.inTurn t hold
        · rw [List.mem_singleton.mp hnew]
          exact Send.inTurn_new hp.current
  | fetch k outcome =>
      obtain ⟨s, hk, h⟩ := Option.bind_eq_some_iff.mp h
      obtain ⟨s', hs', h⟩ := Option.bind_eq_some_iff.mp h
      obtain rfl := Option.some.inj h
      exact hp.set hk ((hp.inTurn s (List.mem_of_getElem? hk)).fetch hagain hs').1 (Send.fetch_fetched hs')
  | retry k =>
      obtain ⟨s, hk, h⟩ := Option.bind_eq_some_iff.mp h
      obtain ⟨s', hs', h⟩ := Option.bind_eq_some_iff.mp h
      obtain rfl := Option.some.inj h
      refine hp.set hk ((hp.inTurn s (List.mem_of_getElem? hk)).retry hs').1 ?_
      rw [Send.retry_fetched hs']
      exact fun _ hx => hx
  | resume k thrown =>
      obtain ⟨s, hk, h⟩ := Option.bind_eq_some_iff.mp h
      have hs := hp.inTurn s (List.mem_of_getElem? hk)
      obtain ⟨payload, i, phase, fetched⟩ := s
      cases phase with
      | fetching _ _ _ _ | waiting _ | answered _ _ | failed _ => exact absurd h (by simp)
      | returned result index =>
          obtain rfl := Option.some.inj h
          obtain ⟨hindex, before, hfetched, hfailed, hbefore⟩ := hs.fits
          have hnext : Send.InTurn c ⟨payload, i, .answered result thrown, fetched⟩ :=
            ⟨hs.initial, hs.asked, before, index, hfetched, hfailed, hbefore⟩
          refine ⟨hindex, Or.inr ⟨⟨payload, i, .answered result thrown, fetched⟩, ?_, result, ?_⟩, ?_⟩
          · exact List.mem_set (List.getElem?_eq_some_iff.mp hk).1 _
          · rw [show fetched = before ++ [(index, .ok result)] from hfetched]
            exact List.mem_append_right _ (List.mem_singleton.mpr rfl)
          · exact (hp.set hk hnext fun _ hx => hx).inTurn

theorem run_sound (hagain : again.Lawful) (hrun : Run again c p) : Sound c p :=
  Calls.steps_invariant (P := Sound c) (fun _ _ hp hstep => step_sound hagain hstep hp) hrun (sound_create c)

/-- What is asked before the last endpoint failed, and there is never more than the attempts allow. -/
theorem Send.InTurn.failed_before (hs : s.InTurn c) :
    AllFailed s.fetched.dropLast ∧ s.fetched.length ≤ (c.retries + 1) * c.urls.length := by
  obtain ⟨payload, i, phase, fetched⟩ := s
  obtain ⟨hinitial, hasked, hfits⟩ := hs
  have hdrop (hfailed : AllFailed fetched) : AllFailed fetched.dropLast :=
    fun x hx => hfailed x (List.dropLast_subset _ hx)
  cases phase with
  | fetching attempt count index errors =>
      obtain ⟨hfailed, hlen, hattempt, hcount, _⟩ := hfits
      refine ⟨hdrop hfailed, ?_⟩
      calc fetched.length = attempt * c.urls.length + count := hlen
        _ ≤ attempt * c.urls.length + c.urls.length := Nat.add_le_add_left (Nat.le_of_lt hcount) _
        _ = (attempt + 1) * c.urls.length := (Nat.succ_mul _ _).symm
        _ ≤ (c.retries + 1) * c.urls.length := Nat.mul_le_mul_right _ (Nat.succ_le_succ hattempt)
  | waiting attempt =>
      obtain ⟨hfailed, hlen, _, hattempt⟩ := hfits
      refine ⟨hdrop hfailed, ?_⟩
      show fetched.length ≤ _
      rw [hlen]
      exact Nat.mul_le_mul_right _ (Nat.le_succ_of_le hattempt)
  | returned result index =>
      obtain ⟨_, before, rfl, hfailed, hbefore⟩ := hfits
      refine ⟨?_, ?_⟩
      · rw [List.dropLast_concat]
        exact hfailed
      · rw [List.length_append]
        exact hbefore
  | answered result thrown =>
      obtain ⟨before, index, rfl, hfailed, hbefore⟩ := hfits
      refine ⟨?_, ?_⟩
      · rw [List.dropLast_concat]
        exact hfailed
      · rw [List.length_append]
        exact hbefore
  | failed errors =>
      obtain ⟨hfailed, hlen, _⟩ := hfits
      exact ⟨hdrop hfailed, Nat.le_of_eq hlen⟩

/-- The callback got a result. -/
theorem Send.InTurn.of_ok (hs : s.InTurn c) {result : R} (hcalled : .ok result ∈ s.phase.called) :
    ∃ index, s.fetched.getLast? = some (index, .ok result) := by
  have hfits := hs.fits
  generalize s.phase = phase at hcalled hfits
  cases phase with
  | fetching _ _ _ _ | waiting _ | returned _ _ => exact absurd hcalled List.not_mem_nil
  | failed errors => simp [Phase.called] at hcalled
  | answered result' thrown =>
      obtain rfl : result = result' := by cases thrown <;> simpa [Phase.called] using hcalled
      obtain ⟨before, index, hfetched, _⟩ := hfits
      refine ⟨index, ?_⟩
      rw [hfetched, List.getLast?_concat]

/-- The callback got the errors of the endpoints. -/
theorem Send.InTurn.of_allUrls (hs : s.InTurn c) {errors : List String}
    (hcalled : .error (.allUrls errors) ∈ s.phase.called) : s.phase = .failed errors ∧ AllFailed s.fetched ∧
      s.fetched.length = (c.retries + 1) * c.urls.length ∧
      (s.fetched.drop (c.retries * c.urls.length)).map Prod.snd = errors.map .error := by
  have hfits := hs.fits
  generalize s.phase = phase at hcalled hfits
  cases phase with
  | fetching _ _ _ _ | waiting _ | returned _ _ => exact absurd hcalled List.not_mem_nil
  | answered result thrown => cases thrown <;> simp [Phase.called] at hcalled
  | failed errors' =>
      obtain rfl : errors = errors' := by simpa [Phase.called] using hcalled
      exact ⟨rfl, hfits⟩

/-- The callback got what it threw. -/
theorem Phase.called_of_thrown {phase : Phase R} {e : String} (hcalled : .error (.thrown e) ∈ phase.called) :
    ∃ result, phase.called = [.ok result, .error (.thrown e)] := by
  cases phase with
  | fetching _ _ _ _ | waiting _ | returned _ _ => exact absurd hcalled List.not_mem_nil
  | failed errors => simp [Phase.called] at hcalled
  | answered result thrown =>
      cases thrown with
      | none => simp [Phase.called] at hcalled
      | some e' =>
          obtain rfl : e = e' := by simpa [Phase.called] using hcalled
          exact ⟨result, rfl⟩

/-- **Every request goes in turn**, whatever the others do. The endpoints it asks are the next ones from the index it
    saved, all but the last of them failed, and there are at most as many as the attempts allow. The result that it
    calls back with is that of the last one; it calls back with the errors of the endpoints only after every endpoint
    failed in every attempt, and once more after a result only if the callback itself threw. -/
theorem sends_of_run (hagain : again.Lawful) (hrun : Run again c p) :
    p.currentIndex < c.urls.length ∧ ∀ s ∈ p.sends,
      (s.fetched.map Prod.fst = (List.range s.fetched.length).map fun t => (s.initialIndex + t) % c.urls.length) ∧
      AllFailed s.fetched.dropLast ∧ s.fetched.length ≤ (c.retries + 1) * c.urls.length ∧
      (∀ result, .ok result ∈ s.phase.called → ∃ index, s.fetched.getLast? = some (index, .ok result)) ∧
      (∀ errors, .error (.allUrls errors) ∈ s.phase.called → s.phase.called = [.error (.allUrls errors)] ∧
        AllFailed s.fetched ∧ s.fetched.length = (c.retries + 1) * c.urls.length ∧
        (s.fetched.drop (c.retries * c.urls.length)).map Prod.snd = errors.map .error) ∧
      (∀ e, .error (.thrown e) ∈ s.phase.called →
        ∃ result, s.phase.called = [.ok result, .error (.thrown e)]) := by
  have hsound := run_sound hagain hrun
  refine ⟨hsound.current, ?_⟩
  intro s hs
  have hinTurn := hsound.inTurn s hs
  obtain ⟨hbefore, hlen⟩ := hinTurn.failed_before
  refine ⟨hinTurn.asked, hbefore, hlen, ?_, ?_, ?_⟩
  · exact fun result hcalled => hinTurn.of_ok hcalled
  · intro errors hcalled
    obtain ⟨hphase, hfailed⟩ := hinTurn.of_allUrls hcalled
    refine ⟨?_, hfailed⟩
    rw [hphase, Phase.called]
  · exact fun e hcalled => Phase.called_of_thrown hcalled

/-- Steps one after the other. -/
theorem run_of_foldlM {inputs : List (Input P R)} (hp : Run again c p)
    (h : inputs.foldlM (step again c) p = some p') : Run again c p' := by
  induction inputs generalizing p with
  | nil =>
      obtain rfl := Option.some.inj h
      exact hp
  | cons input inputs ih =>
      rw [List.foldlM_cons] at h
      obtain ⟨p₁, hstep, h⟩ := Option.bind_eq_some_iff.mp h
      exact ih (hp.tail ⟨input, hstep⟩) h

/-- As the package counts. -/
def countsRetries : PromiseRetry := fun retries failed => decide (failed ≤ retries)

theorem countsRetries_lawful : countsRetries.Lawful := fun _ _ => decide_eq_true_iff

/-- Two endpoints, and one retry. -/
def twoEndpoints : RetryOptions := ⟨["http://a", "http://b"], 1, by decide⟩

/-- Two requests start at the first endpoint, which refuses one and answers the other, whose callback throws. The
    refused one goes on last, with the answer of the second endpoint, so a third request starts there. -/
def overlapping : List (Input Nat Nat) :=
  [.send 10, .send 20, .fetch 0 (.error "refused"), .fetch 0 (.ok 11), .fetch 1 (.ok 21),
    .resume 1 (some "bad block"), .resume 0 none, .send 30]

theorem overlapping_sends : (overlapping.foldlM (step countsRetries twoEndpoints) create).map (·.sends) = some
    [⟨10, 0, .answered 11 none, [(0, .error "refused"), (1, .ok 11)]⟩,
      ⟨20, 0, .answered 21 (some "bad block"), [(0, .ok 21)]⟩, ⟨30, 1, .fetching 0 0 1 [], []⟩] := rfl

theorem sends_of_run_overlapping : ∃ p : HttpRetryProvider Nat Nat, Run countsRetries twoEndpoints p ∧
    p.sends.map (fun s => s.phase.called) = [[.ok 11], [.ok 21, .error (.thrown "bad block")], []] ∧
    p.currentIndex < 2 ∧ ∀ s ∈ p.sends, AllFailed s.fetched.dropLast ∧ s.fetched.length ≤ 4 ∧
      ∀ result, .ok result ∈ s.phase.called → ∃ index, s.fetched.getLast? = some (index, .ok result) := by
  obtain ⟨p, hp, hsends⟩ := Option.map_eq_some_iff.mp overlapping_sends
  have hrun : Run countsRetries twoEndpoints p := run_of_foldlM .refl hp
  obtain ⟨hcurrent, hall⟩ := sends_of_run countsRetries_lawful hrun
  refine ⟨p, hrun, by rw [hsends]; rfl, hcurrent, ?_⟩
  intro s hs
  obtain ⟨_, hfailed, hlen, hresult, _⟩ := hall s hs
  exact ⟨hfailed, hlen, hresult⟩

/-- As many endpoints in turn as there are include each of them. -/
theorem asked_all {i n u : Nat} {xs : List (Nat × Except String R)} (hu : u < n) (hn : n ≤ xs.length)
    (hasked : xs.map Prod.fst = (List.range xs.length).map fun t => (i + t) % n) : ∃ x ∈ xs, x.1 = u := by
  have hpos : 0 < n := Nat.lt_of_le_of_lt (Nat.zero_le u) hu
  have hi : i % n < n := Nat.mod_lt _ hpos
  have hturn : (i + (u + (n - i % n)) % n) % n = u := by
    rw [Nat.add_mod_mod, ← Nat.mod_add_mod,
      show i % n + (u + (n - i % n)) = u + n by omega, Nat.add_mod_right, Nat.mod_eq_of_lt hu]
  have hmem : u ∈ xs.map Prod.fst := by
    rw [hasked]
    refine List.mem_map.mpr ⟨(u + (n - i % n)) % n, ?_, hturn⟩
    exact List.mem_range.mpr (Nat.lt_of_lt_of_le (Nat.mod_lt _ hpos) hn)
  exact List.mem_map.mp hmem

/-- **One endpoint is enough.** In every run in which some endpoint answers whenever it is asked, no request calls
    back with the errors of the endpoints or waits for another attempt, and each asks every endpoint once at most. -/
theorem answered_of_available (hagain : again.Lawful) (hrun : Run again c p) {u : Nat} (hu : u < c.urls.length)
    (havailable : ∀ s ∈ p.sends, ∀ x ∈ s.fetched, x.1 = u → ∃ result, x.2 = .ok result) :
    ∀ s ∈ p.sends, s.fetched.length ≤ c.urls.length ∧
      (∀ errors, .error (.allUrls errors) ∉ s.phase.called) ∧ ∀ attempt, s.phase ≠ .waiting attempt := by
  intro s hs
  have hinTurn := (run_sound hagain hrun).inTurn s hs
  -- endpoints that all failed are fewer than there are
  have hfew {before rest : List (Nat × Except String R)} (hsplit : s.fetched = before ++ rest)
      (hfailed : AllFailed before) : before.length < c.urls.length := by
    by_contra hmany
    have hasked : before.map Prod.fst =
        (List.range before.length).map fun t => (s.initialIndex + t) % c.urls.length := by
      have htake := congrArg (List.take before.length) hinTurn.asked
      rwa [hsplit, List.map_append, List.take_left' (by rw [List.length_map]), ← List.map_take, List.take_range,
        List.length_append, Nat.min_eq_left (Nat.le_add_right _ _)] at htake
    obtain ⟨x, hx, hxu⟩ := asked_all hu (Nat.not_lt.mp hmany) hasked
    obtain ⟨e, he⟩ := hfailed x hx
    obtain ⟨result, hresult⟩ := havailable s hs x (hsplit ▸ List.mem_append_left _ hx) hxu
    rw [he] at hresult
    exact absurd hresult (by simp)
  have hround (attempt : Nat) (hattempt : 0 < attempt) : c.urls.length ≤ attempt * c.urls.length :=
    Nat.le_mul_of_pos_left _ hattempt
  refine ⟨?_, ?_, ?_⟩
  · rcases List.eq_nil_or_concat s.fetched with hnil | ⟨before, x, hlast⟩
    · rw [hnil]
      exact Nat.zero_le _
    · rw [List.concat_eq_append] at hlast
      have hfailed := hinTurn.failed_before.1
      rw [hlast, List.dropLast_concat] at hfailed
      rw [hlast, List.length_append]
      exact hfew hlast hfailed
  · intro errors hcalled
    obtain ⟨_, hfailed, hlen, _⟩ := hinTurn.of_allUrls hcalled
    have hlt := hfew (List.append_nil _).symm hfailed
    have hle := hround (c.retries + 1) (Nat.succ_pos _)
    omega
  · intro attempt hphase
    have hfits := hinTurn.fits
    rw [hphase] at hfits
    obtain ⟨hfailed, hlen, hattempt, _⟩ := hfits
    have hlt := hfew (List.append_nil _).symm hfailed
    have hle := hround attempt hattempt
    omega

/-- The second endpoint answers whenever it is asked, and it is asked. -/
theorem answered_of_available_overlapping : ∃ p : HttpRetryProvider Nat Nat, Run countsRetries twoEndpoints p ∧
    p.sends.length = 3 ∧ (∀ s ∈ p.sends, ∀ x ∈ s.fetched, x.1 = 1 → ∃ result, x.2 = .ok result) ∧
    (∃ s ∈ p.sends, ∃ x ∈ s.fetched, x.1 = 1) ∧
    ∀ s ∈ p.sends, s.fetched.length ≤ 2 ∧ ∀ errors, .error (.allUrls errors) ∉ s.phase.called := by
  obtain ⟨p, hp, hsends⟩ := Option.map_eq_some_iff.mp overlapping_sends
  have hrun : Run countsRetries twoEndpoints p := run_of_foldlM .refl hp
  have havailable : ∀ s ∈ p.sends, ∀ x ∈ s.fetched, x.1 = 1 → ∃ result, x.2 = .ok result := by
    rw [hsends]
    rintro s hs ⟨index, outcome⟩ hx rfl
    cases outcome with
    | ok result => exact ⟨result, rfl⟩
    | error e =>
        simp only [List.mem_cons, List.not_mem_nil, or_false] at hs
        rcases hs with rfl | rfl | rfl <;> simp at hx
  refine ⟨p, hrun, by rw [hsends]; rfl, havailable, ?_, ?_⟩
  · rw [hsends]
    exact ⟨_, List.mem_cons_self, (1, .ok 11), List.mem_cons_of_mem _ List.mem_cons_self, rfl⟩
  · intro s hs
    obtain ⟨hlen, hanswered, _⟩ := answered_of_available countsRetries_lawful hrun (by decide) havailable s hs
    exact ⟨hlen, hanswered⟩

end HttpRetryProvider
end ThunderBridge
