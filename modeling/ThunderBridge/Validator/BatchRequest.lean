import Mathlib.Data.List.Nodup
import Mathlib.Data.List.Range
import Mathlib.Data.List.Perm.Subperm

/-!
# `Validator.BatchRequest` — several requests in one, and one promise for all their results

Each request of a batch has a callback that stores its result under the index the request was added with; the
last one resolves the promise, and the first that gets an error rejects it. The callbacks may come in any order:
`promise_eq` says what the promise is after any part of them. The results keep the order of the requests, and
an empty batch never settles.
-/

namespace ThunderBridge

/-- A promise with its value. -/
inductive Settled (A : Type) where
  | pending
  | resolved (value : A)
  | rejected (message : String)
deriving DecidableEq, Repr

namespace Settled

variable {A : Type}

/-- Only the first of `resolve` and `reject` counts. -/
def resolve (p : Settled A) (value : A) : Settled A :=
  match p with
  | .pending => .resolved value
  | _ => p

def reject (p : Settled A) (message : String) : Settled A :=
  match p with
  | .pending => .rejected message
  | _ => p

end Settled

/-- A batch of requests; `requests` is what was added to the batch of web3. -/
structure BatchRequest (Q A : Type) where
  requests : List Q
  results : List (Option A)
  resultsFilled : Nat
  promise : Settled (List (Option A))
deriving DecidableEq, Repr

namespace BatchRequest

variable {Q A : Type}

/-! ## The source -/

def create : BatchRequest Q A := ⟨[], [], 0, .pending⟩

def add (b : BatchRequest Q A) (method : Q) : BatchRequest Q A :=
  { b with requests := b.requests ++ [method], results := b.results ++ [none] }

/-- The message of the error for the request at `index`. -/
def requestFailed (index : Nat) (err : String) : String := "request " ++ index.repr ++ " failed: " ++ err

def web3BatchRequestCallBack (b : BatchRequest Q A) (index : Nat) (outcome : Except String A) : BatchRequest Q A :=
  match outcome with
  | .error err => { b with promise := b.promise.reject (requestFailed index err) }
  | .ok result =>
      let b := { b with results := b.results.set index (some result), resultsFilled := b.resultsFilled + 1 }
      if b.resultsFilled = b.results.length then { b with promise := b.promise.resolve b.results } else b

/-- The callbacks, in the order in which they come. -/
def execute (b : BatchRequest Q A) (calls : List (Nat × Except String A)) : BatchRequest Q A :=
  calls.foldl (fun b x => b.web3BatchRequestCallBack x.1 x.2) b

/-- A batch of the given requests. -/
def ofRequests (rs : List Q) : BatchRequest Q A := rs.foldl add create

/-! ## What the promise is -/

theorem ofRequests_eq (rs : List Q) :
    (ofRequests rs : BatchRequest Q A) = ⟨rs, List.replicate rs.length none, 0, .pending⟩ := by
  induction rs using List.reverseRecOn with
  | nil => rfl
  | append_singleton rs method ih =>
      rw [ofRequests, List.foldl_append]
      show add (ofRequests rs) method = _
      rw [ih, add, List.length_append, List.length_singleton, List.replicate_succ']

variable {answers : Nat → Except String A} {order : List Nat} {n : Nat}

/-- The answer, if there is one. -/
def answer? (answers : Nat → Except String A) (i : Nat) : Option A :=
  match answers i with
  | .ok result => some result
  | .error _ => none

/-- The first request, in the order of the callbacks, that failed. -/
def firstFailed (answers : Nat → Except String A) (order : List Nat) : Option (Nat × String) :=
  order.findSome? fun i =>
    match answers i with
    | .ok _ => none
    | .error err => some (i, err)

theorem firstFailed_concat (order : List Nat) (i : Nat) :
    firstFailed answers (order ++ [i]) =
      (firstFailed answers order).or (firstFailed answers [i]) := List.findSome?_append

theorem firstFailed_eq_none :
    firstFailed answers order = none ↔ ∀ i ∈ order, ∃ result, answers i = .ok result := by
  rw [firstFailed, List.findSome?_eq_none_iff]
  refine forall₂_congr fun i _ => ?_
  cases answers i <;> simp

/-- The batch after the callbacks of `order`. -/
structure After (answers : Nat → Except String A) (n : Nat) (order : List Nat) (b : BatchRequest Q A) : Prop where
  length : b.results.length = n
  results : ∀ i < n, b.results[i]? = some (if i ∈ order then answer? answers i else none)
  filled : firstFailed answers order = none → b.resultsFilled = order.length
  promise : b.promise =
    match firstFailed answers order with
    | some (i, err) => .rejected (requestFailed i err)
    | none => if n ≠ 0 ∧ order.length = n then .resolved b.results else .pending

theorem after_ofRequests (answers : Nat → Except String A) (rs : List Q) :
    After answers rs.length [] (ofRequests rs) := by
  rw [ofRequests_eq]
  refine ⟨List.length_replicate, ?_, fun _ => rfl, ?_⟩
  · intro i hi
    rw [List.getElem?_replicate_of_lt hi]
    rfl
  · show Settled.pending = if rs.length ≠ 0 ∧ 0 = rs.length then _ else _
    rw [if_neg fun h => h.1 h.2.symm]

/-- One more callback. -/
theorem After.callBack {b : BatchRequest Q A} (h : After answers n order b) {i : Nat} (hi : i < n)
    (hnew : i ∉ order) (hle : order.length < n) :
    After answers n (order ++ [i]) (b.web3BatchRequestCallBack i (answers i)) := by
  obtain ⟨hlen, hresults, hfilled, hpromise⟩ := h
  have hmem (j : Nat) : j ∈ order ++ [i] ↔ j ∈ order ∨ j = i := by simp
  cases hanswer : answers i with
  | error err =>
      have hfirst : firstFailed answers [i] = some (i, err) := by simp [firstFailed, hanswer]
      refine ⟨hlen, ?_, ?_, ?_⟩
      · intro j hj
        show b.results[j]? = _
        rw [hresults j hj]
        by_cases hji : j = i
        · subst hji
          simp [hnew, answer?, hanswer]
        · simp [hji]
      · intro hnone
        rw [firstFailed_concat, hfirst] at hnone
        exact absurd hnone (by simp)
      · show b.promise.reject (requestFailed i err) = _
        rw [firstFailed_concat, hfirst, hpromise]
        cases hbefore : firstFailed answers order with
        | some x => rfl
        | none =>
            simp only [Option.none_or]
            rw [if_neg fun hall => absurd hall.2 (Nat.ne_of_lt hle)]
            rfl
  | ok result =>
      have hfirst : firstFailed answers (order ++ [i]) = firstFailed answers order := by
        rw [firstFailed_concat, show firstFailed answers [i] = none by simp [firstFailed, hanswer], Option.or_none]
      have hset : ∀ j < n, (b.results.set i (some result))[j]? =
          some (if j ∈ order ++ [i] then answer? answers j else none) := by
        intro j hj
        by_cases hji : j = i
        · subst hji
          rw [List.getElem?_set_self (hlen ▸ hi), if_pos ((hmem j).mpr (Or.inr rfl)), answer?, hanswer]
        · rw [List.getElem?_set_ne (Ne.symm hji), hresults j hj]
          simp [hji]
      have hlen' : (b.results.set i (some result)).length = n := by rw [List.length_set, hlen]
      have hn : n ≠ 0 := Nat.ne_of_gt (Nat.lt_of_le_of_lt (Nat.zero_le i) hi)
      have hadd : (order ++ [i]).length = order.length + 1 := by simp
      simp only [web3BatchRequestCallBack, hlen']
      cases hbefore : firstFailed answers order with
      | some x =>
          -- rejected already, whatever the count says
          have hrejected : b.promise = .rejected (requestFailed x.1 x.2) := by rw [hpromise, hbefore]
          rw [hbefore] at hfirst
          have hfailed (hnone : firstFailed answers (order ++ [i]) = none) : False :=
            absurd (hfirst.symm.trans hnone) (by simp)
          split
          · refine ⟨hlen', hset, fun hnone => (hfailed hnone).elim, ?_⟩
            show b.promise.resolve _ = _
            rw [hrejected, hfirst]
            rfl
          · refine ⟨hlen', hset, fun hnone => (hfailed hnone).elim, ?_⟩
            show b.promise = _
            rw [hrejected, hfirst]
      | none =>
          have hpending : b.promise = .pending := by
            rw [hpromise, hbefore]
            exact if_neg fun hall => absurd hall.2 (Nat.ne_of_lt hle)
          rw [hbefore] at hfirst
          rw [hfilled hbefore]
          split
          · rename_i hlast
            refine ⟨hlen', hset, fun _ => hadd.symm, ?_⟩
            show b.promise.resolve _ = _
            rw [hpending, hfirst]
            exact (if_pos ⟨hn, hadd.trans hlast⟩).symm
          · rename_i hmore
            refine ⟨hlen', hset, fun _ => hadd.symm, ?_⟩
            show b.promise = _
            rw [hpending, hfirst]
            exact (if_neg fun hall => hmore (hadd.symm.trans hall.2)).symm

/-- Callbacks that come once each. -/
theorem after_execute (answers : Nat → Except String A) (rs : List Q) (hnodup : order.Nodup)
    (hlt : ∀ i ∈ order, i < rs.length) :
    After answers rs.length order ((ofRequests rs).execute (order.map fun i => (i, answers i))) := by
  induction order using List.reverseRecOn with
  | nil => exact after_ofRequests answers rs
  | append_singleton order i ih =>
      have hi : i < rs.length := hlt i (by simp)
      obtain ⟨hnodup', _, hdisjoint⟩ := List.nodup_append.mp hnodup
      have hnew : i ∉ order := fun hmem => hdisjoint i hmem i (List.mem_singleton.mpr rfl) rfl
      have hfull : (order ++ [i]).length ≤ (List.range rs.length).length :=
        (List.subperm_of_subset hnodup fun j hj => List.mem_range.mpr (hlt j hj)).length_le
      rw [List.length_append, List.length_singleton, List.length_range] at hfull
      have hbefore := ih hnodup' fun j hj => hlt j (List.mem_append_left _ hj)
      rw [execute, List.map_append, List.foldl_append]
      exact hbefore.callBack hi hnew hfull

/-- **What the promise is**, in whatever order the callbacks come, and after any part of them. Once a request has
    failed it is rejected with the error that came first. Otherwise it is resolved, with the results in the
    order of the requests, as soon as all of them are there; without requests it stays pending. -/
theorem promise_eq (answers : Nat → Except String A) (rs : List Q) (hnodup : order.Nodup)
    (hlt : ∀ i ∈ order, i < rs.length) :
    ((ofRequests rs).execute (order.map fun i => (i, answers i))).promise =
      match firstFailed answers order with
      | some (i, err) => .rejected (requestFailed i err)
      | none =>
          if rs ≠ [] ∧ order.length = rs.length then
            .resolved ((List.range rs.length).map (answer? answers))
          else .pending := by
  obtain ⟨hlen, hresults, _, hpromise⟩ := after_execute answers rs hnodup hlt
  rw [hpromise]
  cases firstFailed answers order with
  | some x => rfl
  | none =>
      simp only [ne_eq, List.length_eq_zero_iff]
      by_cases hall : ¬rs = [] ∧ order.length = rs.length
      · rw [if_pos hall, if_pos hall]
        have hperm : order.Perm (List.range rs.length) := by
          apply (List.subperm_of_subset hnodup fun j hj => List.mem_range.mpr (hlt j hj)).perm_of_length_le
          rw [List.length_range, hall.2]
        congr 1
        apply List.ext_getElem?
        intro i
        by_cases hi : i < rs.length
        · rw [hresults i hi, if_pos (hperm.mem_iff.mpr (List.mem_range.mpr hi)), List.getElem?_map,
            List.getElem?_range hi]
          rfl
        · rw [List.getElem?_eq_none (hlen ▸ Nat.not_lt.mp hi), List.getElem?_eq_none (by simpa using hi)]
      · rw [if_neg hall, if_neg hall]

/-- The second request is answered first. -/
example : ((ofRequests ["eth_blockNumber", "eth_getLogs"]).execute [(1, .ok 7)]).promise = .pending ∧
    ((ofRequests ["eth_blockNumber", "eth_getLogs"]).execute [(1, .ok 7), (0, .ok 6)]).promise =
      .resolved [some 6, some 7] := by
  decide

end BatchRequest
end ThunderBridge
