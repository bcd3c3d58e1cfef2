import Mathlib.Data.List.Infix
import ThunderBridge.Lib.Bisect
import ThunderBridge.Lib.Ranges

/-!
# `Monitor.Logs` — how the monitor fetches events

`getPastEventsIter` cuts the blocks into ranges, and `getPastEvents` fetches the events of one of them: a range
that the node refuses as too large is split at the rounded half of its bounds, as often as it takes.

The half is rounded up, so a range of two blocks is its own first half. Fetching ends, with every event of the
range once and in order, exactly when no two-block range that it splits down to is refused (`fetches_iff`).
-/

namespace ThunderBridge
namespace Monitor

open Ranges

/-! ## Promises -/

/-- What a promise is rejected with: its `message`, if it has one, and the value written as a text. -/
structure Thrown where
  message : Option String
  text : String
deriving DecidableEq, Repr

/-- `new Error(e)`. -/
def Thrown.newError (e : Thrown) : Thrown := ⟨some e.text, "Error: " ++ e.text⟩

/-- An asynchronous call: it may never return, and what it meets may change while it runs. -/
abbrev Promise (σ : Type) := ExceptT Thrown (StateT σ Option)

namespace Promise

variable {σ α β : Type}

/-- A call that never returns. -/
def never : Promise σ α := ExceptT.mk fun _ => none

@[simp] theorem never_run (s : σ) : (never : Promise σ α).run.run s = none := rfl

theorem bind_eq_ok {x : Promise σ α} {f : α → Promise σ β} {s s' : σ} {b : β} :
    (x >>= f).run.run s = some (.ok b, s') ↔
      ∃ a t, x.run.run s = some (.ok a, t) ∧ (f a).run.run t = some (.ok b, s') := by
  rw [ExceptT.run_bind, StateT.run_bind, Option.bind_eq_bind, Option.bind_eq_some_iff]
  constructor
  · rintro ⟨⟨result, t⟩, hx, hf⟩
    cases result with
    | ok a => exact ⟨a, t, hx, hf⟩
    | error e => exact absurd hf (by simp)
  · rintro ⟨a, t, hx, hf⟩
    exact ⟨(.ok a, t), hx, hf⟩

theorem pure_eq_ok {a b : α} {s s' : σ} :
    (pure a : Promise σ α).run.run s = some (.ok b, s') ↔ a = b ∧ s = s' := by
  simp

theorem tryCatch_eq_ok {x : Promise σ α} {handler : Thrown → Promise σ α} {s s' : σ} {a : α} :
    (tryCatch x handler).run.run s = some (.ok a, s') ↔
      x.run.run s = some (.ok a, s') ∨
      ∃ e t, x.run.run s = some (.error e, t) ∧ (handler e).run.run t = some (.ok a, s') := by
  rw [ExceptT.run_tryCatch, StateT.run_bind, Option.bind_eq_bind, Option.bind_eq_some_iff]
  constructor
  · rintro ⟨⟨result, t⟩, hx, hcatch⟩
    cases result with
    | ok b =>
        obtain ⟨rfl, rfl⟩ : b = a ∧ t = s' := by simpa using hcatch
        exact Or.inl hx
    | error e => exact Or.inr ⟨e, t, hx, hcatch⟩
  · rintro (hx | ⟨e, t, hx, hcatch⟩)
    · exact ⟨(.ok a, s'), hx, rfl⟩
    · exact ⟨(.error e, t), hx, hcatch⟩

end Promise

/-! ## The source -/

variable {σ ε α : Type}

def queryRange : Nat := 1000

/-- The loop of `getPastEventsIter`. -/
def iterate (toBlock «from» «to» : Nat) : List (Nat × Nat) :=
  if «to» < toBlock then («from», «to») :: iterate toBlock («to» + 1) («to» + queryRange)
  else [(«from», toBlock)]
termination_by toBlock - «to»
decreasing_by simp only [queryRange]; omega

/-- The ranges that `getPastEventsIter` fetches, one after the other. -/
def getPastEventsIter (fromBlock toBlock : Nat) : List (Nat × Nat) :=
  iterate toBlock fromBlock (fromBlock + queryRange)

/-- `/query returned more than \d+ results/` at the start of a text. -/
def returnedMoreThan (text : List Char) : Bool :=
  let rest := text.drop "query returned more than ".toList.length
  "query returned more than ".toList.isPrefixOf text && (rest.head?.any Char.isDigit) &&
    " results".toList.isPrefixOf (rest.dropWhile Char.isDigit)

/-- The test of `e.message`. -/
def Thrown.tooManyResults (e : Thrown) : Bool :=
  match e.message with
  | some message => message.toList.tails.any returnedMoreThan
  | none => false

/-- `fromBlock.add(toBlock).divRound(TWO)`, halves rounded up. -/
def middle (fromBlock toBlock : Nat) : Nat := (fromBlock + toBlock + 1) / 2

/-- `getPastEvents`, where `query` is the node's answer to `contract.getPastEvents`, and `fuel` bounds the depth of
    the recursion. -/
def getPastEvents (query : Nat → Nat → Promise σ (List ε)) : Nat → Nat → Nat → Promise σ (List ε)
  | 0, _, _ => .never
  | fuel + 1, fromBlock, toBlock =>
      tryCatch (query fromBlock toBlock) fun e =>
        if e.tooManyResults then do
          let firstHalfEvents ← getPastEvents query fuel fromBlock (middle fromBlock toBlock)
          let secondHalfEvents ← getPastEvents query fuel (middle fromBlock toBlock + 1) toBlock
          pure (firstHalfEvents ++ secondHalfEvents)
        else throw e.newError

/-- The iterator driven to the end: each promise is awaited before the next one is made, and `add` takes up one
    event. -/
def forEachEvent (query : Nat → Nat → Promise σ (List ε)) (fuel : Nat) (add : α → ε → α)
    (iterator : List (Nat × Nat)) (result : α) : Promise σ α :=
  iterator.foldlM (fun result range => do
    let events ← getPastEvents query fuel range.1 range.2
    pure (events.foldl add result)) result

/-- All events that the iterator comes to. -/
def fetchAll (query : Nat → Nat → Promise σ (List ε)) (fuel fromBlock toBlock : Nat) : Promise σ (List ε) :=
  forEachEvent query fuel (fun events event => events ++ [event]) (getPastEventsIter fromBlock toBlock) []

/-! ## The ranges -/

theorem iterate_le {toBlock first last : Nat} (hlast : first ≤ last) (htoBlock : first ≤ toBlock) :
    ∀ range ∈ iterate toBlock first last, range.1 ≤ range.2 := by
  fun_induction iterate toBlock first last with
  | case1 first last hlt ih =>
      intro range hrange
      rcases List.mem_cons.mp hrange with rfl | hrest
      · exact hlast
      · exact ih (by simp only [queryRange]; omega) hlt range hrest
  | case2 first last hlt =>
      intro range hrange
      rw [List.mem_singleton.mp hrange]
      exact htoBlock

theorem iterate_gather (log : Nat → List ε) {toBlock first last : Nat} (hlast : first ≤ last + 1) :
    (iterate toBlock first last).flatMap (fun range => gather log range.1 range.2) =
      gather log first toBlock := by
  fun_induction iterate toBlock first last with
  | case1 first last hlt ih =>
      rw [List.flatMap_cons, ih (by simp only [queryRange]; omega)]
      exact gather_append hlast (Nat.le_of_lt hlt)
  | case2 first last hlt => simp

theorem getPastEventsIter_le {fromBlock toBlock : Nat} (h : fromBlock ≤ toBlock) :
    ∀ range ∈ getPastEventsIter fromBlock toBlock, range.1 ≤ range.2 :=
  iterate_le (Nat.le_add_right _ _) h

theorem getPastEventsIter_gather (log : Nat → List ε) (fromBlock toBlock : Nat) :
    (getPastEventsIter fromBlock toBlock).flatMap (fun range => gather log range.1 range.2) =
      gather log fromBlock toBlock :=
  iterate_gather log (by omega)

/-! ## Fetching one range -/

variable {query : Nat → Nat → Promise σ (List ε)} {fuel fromBlock toBlock : Nat} {s s' : σ}

/-- What a call that returns has done. -/
theorem getPastEvents_eq_ok {events : List ε} :
    (getPastEvents query (fuel + 1) fromBlock toBlock).run.run s = some (.ok events, s') ↔
      (query fromBlock toBlock).run.run s = some (.ok events, s') ∨
      ∃ e t firstHalfEvents t' secondHalfEvents,
        (query fromBlock toBlock).run.run s = some (.error e, t) ∧ e.tooManyResults = true ∧
        (getPastEvents query fuel fromBlock (middle fromBlock toBlock)).run.run t =
          some (.ok firstHalfEvents, t') ∧
        (getPastEvents query fuel (middle fromBlock toBlock + 1) toBlock).run.run t' =
          some (.ok secondHalfEvents, s') ∧
        events = firstHalfEvents ++ secondHalfEvents := by
  rw [getPastEvents, Promise.tryCatch_eq_ok]
  refine or_congr_right (exists_congr fun e => exists_congr fun t => ?_)
  constructor
  · rintro ⟨hquery, hhandler⟩
    split at hhandler
    · rename_i hrefused
      obtain ⟨firstHalfEvents, t', hfirst, hrest⟩ := Promise.bind_eq_ok.mp hhandler
      obtain ⟨secondHalfEvents, t'', hsecond, hpure⟩ := Promise.bind_eq_ok.mp hrest
      obtain ⟨rfl, rfl⟩ := Promise.pure_eq_ok.mp hpure
      exact ⟨_, _, _, hquery, hrefused, hfirst, hsecond, rfl⟩
    · exact absurd hhandler (by simp)
  · rintro ⟨firstHalfEvents, t', secondHalfEvents, hquery, hrefused, hfirst, hsecond, rfl⟩
    refine ⟨hquery, ?_⟩
    rw [if_pos hrefused]
    exact Promise.bind_eq_ok.mpr
      ⟨_, _, hfirst, Promise.bind_eq_ok.mpr ⟨_, _, hsecond, Promise.pure_eq_ok.mpr ⟨rfl, rfl⟩⟩⟩

theorem le_middle (h : fromBlock ≤ toBlock) :
    fromBlock ≤ middle fromBlock toBlock ∧ middle fromBlock toBlock ≤ toBlock := by
  unfold middle
  omega

/-- A node whose answers are the events of the range, and that refuses no range without blocks as too large. -/
structure Truthful (query : Nat → Nat → Promise σ (List ε)) (log : Nat → List ε) : Prop where
  answers : ∀ {fromBlock toBlock s events s'},
    (query fromBlock toBlock).run.run s = some (.ok events, s') → events = gather log fromBlock toBlock
  refuses : ∀ {fromBlock toBlock s e s'},
    (query fromBlock toBlock).run.run s = some (.error e, s') → e.tooManyResults = true → fromBlock ≤ toBlock

variable {log : Nat → List ε}

/-- What comes back from a truthful node, however often the range was split, is what the range holds. -/
theorem getPastEvents_truthful (htrue : Truthful query log) {events : List ε}
    (h : (getPastEvents query fuel fromBlock toBlock).run.run s = some (.ok events, s')) :
    events = gather log fromBlock toBlock := by
  induction fuel generalizing fromBlock toBlock s s' events with
  | zero => exact absurd h (by simp [getPastEvents])
  | succ fuel ih =>
      rcases getPastEvents_eq_ok.mp h with hquery | ⟨e, t, first, t', second, hquery, hrefused, hfirst, hsecond, rfl⟩
      · exact htrue.answers hquery
      · have hle := le_middle (htrue.refuses hquery hrefused)
        rw [ih hfirst, ih hsecond]
        exact gather_append (Nat.le_succ_of_le hle.1) hle.2

/-! ## The iterator driven to the end -/

/-- The results of all promises are taken up, in the order of the ranges. -/
theorem forEachEvent_truthful (htrue : Truthful query log) {add : α → ε → α} {iterator : List (Nat × Nat)}
    {result result' : α}
    (h : (forEachEvent query fuel add iterator result).run.run s = some (.ok result', s')) :
    result' = (iterator.flatMap fun range => gather log range.1 range.2).foldl add result := by
  induction iterator generalizing result s with
  | nil => exact (Promise.pure_eq_ok.mp h).1.symm
  | cons range iterator ih =>
      obtain ⟨next, t, hnext, hrest⟩ := Promise.bind_eq_ok.mp h
      obtain ⟨events, t', hevents, hpure⟩ := Promise.bind_eq_ok.mp hnext
      obtain ⟨rfl, rfl⟩ := Promise.pure_eq_ok.mp hpure
      rw [ih hrest, getPastEvents_truthful htrue hevents, List.flatMap_cons, List.foldl_append]

/-- Each promise is fulfilled on the way. -/
theorem forEachEvent_fetched {add : α → ε → α} {iterator : List (Nat × Nat)} {result result' : α}
    (h : (forEachEvent query fuel add iterator result).run.run s = some (.ok result', s')) :
    ∀ range ∈ iterator, ∃ t events t',
      (getPastEvents query fuel range.1 range.2).run.run t = some (.ok events, t') := by
  induction iterator generalizing result s with
  | nil =>
      intro range hrange
      exact absurd hrange List.not_mem_nil
  | cons range iterator ih =>
      obtain ⟨next, t, hnext, hrest⟩ := Promise.bind_eq_ok.mp h
      obtain ⟨events, t', hevents, _⟩ := Promise.bind_eq_ok.mp hnext
      intro range' hrange
      rcases List.mem_cons.mp hrange with rfl | hmem
      · exact ⟨s, events, t', hevents⟩
      · exact ih hrest range' hmem

/-! ## A node with a limit -/

/-- The range holds at most `L` events. -/
def Fits (log : Nat → List ε) (L fromBlock toBlock : Nat) : Prop := (gather log fromBlock toBlock).length ≤ L

instance (log : Nat → List ε) (L fromBlock toBlock : Nat) : Decidable (Fits log L fromBlock toBlock) :=
  inferInstanceAs (Decidable (_ ≤ _))

/-- A node that answers for at most `L` events. -/
def limited (log : Nat → List ε) (L fromBlock toBlock : Nat) : Promise Unit (List ε) :=
  if Fits log L fromBlock toBlock then pure (gather log fromBlock toBlock)
  else
    throw
      { message := some ("query returned more than " ++ L.repr ++ " results")
        text := "Error: query returned more than " ++ L.repr ++ " results" }

theorem returnedMoreThan_digits {digits : List Char} (hdigits : ∀ c ∈ digits, c.isDigit = true)
    (hne : digits ≠ []) :
    returnedMoreThan ("query returned more than ".toList ++ (digits ++ " results".toList)) = true := by
  have hhead : (digits ++ " results".toList).head?.any Char.isDigit = true := by
    cases digits with
    | nil => exact absurd rfl hne
    | cons c cs => exact hdigits c List.mem_cons_self
  have hrest : (digits ++ " results".toList).dropWhile Char.isDigit = " results".toList := by
    rw [List.dropWhile_append_of_pos hdigits]
    decide
  simp only [returnedMoreThan, List.drop_left, hhead, hrest, List.isPrefixOf_iff_prefix, Bool.and_eq_true]
  exact ⟨⟨List.prefix_append _ _, trivial⟩, List.prefix_refl _⟩

/-- The monitor understands the message of such a node. -/
theorem tooManyResults_limit (L : Nat) (text : String) :
    (Thrown.mk (some ("query returned more than " ++ L.repr ++ " results")) text).tooManyResults = true := by
  have hdigits : ∀ c ∈ Nat.toDigits 10 L, c.isDigit = true := fun c hc =>
    Nat.isDigit_of_mem_toDigits (by decide) (by decide) hc
  have hmessage : ("query returned more than " ++ L.repr ++ " results").toList =
      "query returned more than ".toList ++ (Nat.toDigits 10 L ++ " results".toList) := by
    simp only [String.toList_append, Nat.toList_repr, List.append_assoc]
  apply List.any_eq_true.mpr
  refine ⟨_, (List.mem_tails _ _).mpr (List.suffix_refl _), ?_⟩
  rw [hmessage]
  exact returnedMoreThan_digits hdigits (Nat.toDigits_ne_nil)

variable {L : Nat}

theorem limited_of_fits (h : Fits log L fromBlock toBlock) :
    (limited log L fromBlock toBlock).run.run () = some (.ok (gather log fromBlock toBlock), ()) := by
  unfold limited
  rw [if_pos h]
  rfl

theorem limited_of_not_fits (h : ¬ Fits log L fromBlock toBlock) : ∃ e : Thrown, e.tooManyResults = true ∧
    (limited log L fromBlock toBlock).run.run () = some (.error e, ()) := by
  unfold limited
  rw [if_neg h]
  exact ⟨_, tooManyResults_limit L _, rfl⟩

theorem limited_truthful : Truthful (limited log L) log where
  answers := by
    intro a b s events s' h
    by_cases hfits : Fits log L a b
    · rw [limited_of_fits hfits] at h
      simpa using h.symm
    · obtain ⟨e, _, he⟩ := limited_of_not_fits hfits
      exact absurd (he.symm.trans h) (by simp)
  refuses := by
    intro a b s e s' h _
    by_contra hlt
    have hfits : Fits log L a b := by
      unfold Fits
      rw [gather_eq_nil_of_lt (Nat.lt_of_not_le hlt)]
      exact Nat.zero_le _
    rw [limited_of_fits hfits] at h
    exact absurd h (by simp)

/-- A search that ends returns, from some fuel on, what the range holds. -/
theorem fetched_of_halts (h : Bisect.Halts middle (Fits log L) fromBlock toBlock) :
    ∃ enough, ∀ fuel, enough ≤ fuel →
      (getPastEvents (limited log L) fuel fromBlock toBlock).run.run () =
        some (.ok (gather log fromBlock toBlock), ()) := by
  induction h with
  | @fits a b hfits =>
      refine ⟨1, fun fuel hfuel => ?_⟩
      obtain ⟨n, rfl⟩ := Nat.exists_eq_add_of_le' hfuel
      exact getPastEvents_eq_ok.mpr (Or.inl (limited_of_fits hfits))
  | @split a b _ _ ihleft ihright =>
      obtain ⟨left, hleft⟩ := ihleft
      obtain ⟨right, hright⟩ := ihright
      refine ⟨max left right + 1, fun fuel hfuel => ?_⟩
      obtain ⟨n, rfl⟩ := Nat.exists_eq_add_of_le' (Nat.le_trans (Nat.succ_le_succ (Nat.zero_le _)) hfuel)
      by_cases hfits : Fits log L a b
      · exact getPastEvents_eq_ok.mpr (Or.inl (limited_of_fits hfits))
      · obtain ⟨e, hrefused, hquery⟩ := limited_of_not_fits hfits
        have hle := le_middle (limited_truthful.refuses hquery hrefused)
        have hmeet := gather_append (f := log) (Nat.le_succ_of_le hle.1) hle.2
        exact getPastEvents_eq_ok.mpr (Or.inr ⟨e, (), _, (), _, hquery, hrefused,
          hleft n (by omega), hright n (by omega), hmeet.symm⟩)

theorem halts_of_fetched {events : List ε}
    (h : (getPastEvents (limited log L) fuel fromBlock toBlock).run.run () = some (.ok events, ())) :
    Bisect.Halts middle (Fits log L) fromBlock toBlock := by
  induction fuel generalizing fromBlock toBlock events with
  | zero => exact absurd h (by simp [getPastEvents])
  | succ fuel ih =>
      by_cases hfits : Fits log L fromBlock toBlock
      · exact .fits hfits
      · rcases getPastEvents_eq_ok.mp h with hquery | ⟨_, _, _, _, _, _, _, hfirst, hsecond, _⟩
        · obtain ⟨e, _, hrefused⟩ := limited_of_not_fits hfits
          exact absurd (hrefused.symm.trans hquery) (by simp)
        · exact .split (ih hfirst) (ih hsecond)

theorem fetched_of_all_halt {iterator : List (Nat × Nat)}
    (hall : ∀ range ∈ iterator, Bisect.Halts middle (Fits log L) range.1 range.2) :
    ∃ enough, ∀ fuel, enough ≤ fuel → ∀ range ∈ iterator,
      (getPastEvents (limited log L) fuel range.1 range.2).run.run () =
        some (.ok (gather log range.1 range.2), ()) := by
  induction iterator with
  | nil => exact ⟨0, fun _ _ range hrange => absurd hrange List.not_mem_nil⟩
  | cons range iterator ih =>
      obtain ⟨n, hn⟩ := fetched_of_halts (hall range List.mem_cons_self)
      obtain ⟨m, hm⟩ := ih fun range' h' => hall range' (List.mem_cons_of_mem _ h')
      refine ⟨max n m, fun fuel hfuel range' hrange' => ?_⟩
      rcases List.mem_cons.mp hrange' with rfl | hmem
      · exact hn fuel (by omega)
      · exact hm fuel (by omega) range' hmem

theorem forEachEvent_of_fetched {add : α → ε → α} {iterator : List (Nat × Nat)} {result : α}
    (hfetched : ∀ range ∈ iterator, (getPastEvents (limited log L) fuel range.1 range.2).run.run () =
      some (.ok (gather log range.1 range.2), ())) :
    ∃ result', (forEachEvent (limited log L) fuel add iterator result).run.run () = some (.ok result', ()) := by
  induction iterator generalizing result with
  | nil => exact ⟨result, rfl⟩
  | cons range iterator ih =>
      have hfirst := hfetched range List.mem_cons_self
      have hlater : ∃ result', (forEachEvent (limited log L) fuel add iterator
          ((gather log range.1 range.2).foldl add result)).run.run () = some (.ok result', ()) :=
        ih fun range' h' => hfetched range' (List.mem_cons_of_mem _ h')
      obtain ⟨result', hrest⟩ := hlater
      refine ⟨result', Promise.bind_eq_ok.mpr ⟨_, (), ?_, hrest⟩⟩
      exact Promise.bind_eq_ok.mpr ⟨_, (), hfirst, Promise.pure_eq_ok.mpr ⟨rfl, rfl⟩⟩

/-- The iterator comes to its end exactly when each of its ranges does. -/
theorem forEachEvent_ends_iff (add : α → ε → α) (result : α) {iterator : List (Nat × Nat)} :
    (∃ fuel result', (forEachEvent (limited log L) fuel add iterator result).run.run () =
        some (.ok result', ())) ↔
      ∀ range ∈ iterator, Bisect.Halts middle (Fits log L) range.1 range.2 := by
  constructor
  · rintro ⟨fuel, result', h⟩ range hrange
    obtain ⟨_, events, _, hfetched⟩ := forEachEvent_fetched h range hrange
    exact halts_of_fetched hfetched
  · intro hall
    obtain ⟨fuel, hfuel⟩ := fetched_of_all_halt hall
    exact ⟨fuel, forEachEvent_of_fetched (hfuel fuel (Nat.le_refl _))⟩

theorem foldl_snoc (events : List ε) : ∀ before : List ε,
    events.foldl (fun events event => events ++ [event]) before = before ++ events := by
  induction events with
  | nil => simp
  | cons event events ih => simp [ih]

/-- **Fetching is exact, and it ends exactly when** no two-block range that halving comes to is refused: then
    every event of `[fromBlock, toBlock]` is returned once, in block order. -/
theorem fetches_iff (hsingle : ∀ b, (log b).length ≤ L) (hblocks : fromBlock ≤ toBlock) :
    (∃ fuel, (fetchAll (limited log L) fuel fromBlock toBlock).run.run () =
        some (.ok (gather log fromBlock toBlock), ())) ↔
      ∀ range ∈ getPastEventsIter fromBlock toBlock, ∀ x,
        Bisect.Part middle range.1 range.2 x (x + 1) → Fits log L x (x + 1) := by
  have hexact : (∃ fuel, (fetchAll (limited log L) fuel fromBlock toBlock).run.run () =
        some (.ok (gather log fromBlock toBlock), ())) ↔
      ∀ range ∈ getPastEventsIter fromBlock toBlock, Bisect.Halts middle (Fits log L) range.1 range.2 := by
    unfold fetchAll
    rw [← forEachEvent_ends_iff (fun events event => events ++ [event]) []]
    refine exists_congr fun fuel => ⟨fun h => ⟨_, h⟩, ?_⟩
    rintro ⟨events, h⟩
    have hevents := forEachEvent_truthful limited_truthful h
    rw [getPastEventsIter_gather, foldl_snoc, List.nil_append] at hevents
    exact hevents ▸ h
  have hmono : ∀ a b x y, a ≤ x → y ≤ b → Fits log L a b → Fits log L x y := by
    intro a b x y hax hyb hfits
    exact Nat.le_trans (length_gather_le hax hyb) hfits
  rw [hexact]
  refine forall_congr' fun range => forall_congr' fun hrange => ?_
  have hle := getPastEventsIter_le hblocks range hrange
  rw [Bisect.halts_iff hmono (fun _ _ => le_middle) hle]
  constructor
  · intro h x hpart
    exact h x (x + 1) hpart (by unfold middle; omega)
  · intro h x y hpart hstuck
    have hxy : x ≤ y := hpart.le (fun _ _ hxy => (le_middle hxy).1) hle
    obtain rfl | rfl : y = x ∨ y = x + 1 := by
      unfold middle at hstuck
      omega
    · unfold Fits
      rw [gather_self]
      exact hsingle y
    · exact h x hpart

/-- Three blocks with one event each, from a node that answers for two events: the range is split once. -/
theorem fetches_three_blocks : ∃ fuel,
    (fetchAll (limited (fun b => [b]) 2) fuel 0 2).run.run () = some (.ok [0, 1, 2], ()) := by
  have htwo : ∀ x, Fits (fun b => [b]) 2 x (x + 1) := by
    intro x
    show (gather (fun b => [b]) x (x + 1)).length ≤ 2
    rw [← gather_append (Nat.le_succ x) (Nat.le_succ x), gather_self, gather_self]
    exact Nat.le_refl 2
  have hfits : ∀ range ∈ getPastEventsIter 0 2, ∀ x, Bisect.Part middle range.1 range.2 x (x + 1) →
      Fits (fun b => [b]) 2 x (x + 1) := fun _ _ x _ => htwo x
  refine (fetches_iff ?_ ?_).mpr hfits
  · exact fun _ => Nat.le_succ 1
  · decide

/-- A refused range that is its own first half is fetched for ever. -/
theorem getPastEvents_stuck (hrefused : ¬ Fits log L fromBlock toBlock) (hstuck : middle fromBlock toBlock = toBlock) :
    ∀ fuel, (getPastEvents (limited log L) fuel fromBlock toBlock).run.run () = none := by
  obtain ⟨e, hmany, hquery⟩ := limited_of_not_fits hrefused
  intro fuel
  induction fuel with
  | zero => rfl
  | succ fuel ih =>
      have hcatch : (getPastEvents (limited log L) (fuel + 1) fromBlock toBlock).run.run () =
          ((getPastEvents (limited log L) fuel fromBlock toBlock >>= fun first =>
            getPastEvents (limited log L) fuel (toBlock + 1) toBlock >>= fun second =>
              pure (first ++ second)) : Promise Unit (List ε)).run.run () := by
        rw [getPastEvents, ExceptT.run_tryCatch, StateT.run_bind, hquery]
        simp [hmany, hstuck]
      rw [hcatch, ExceptT.run_bind, StateT.run_bind, ih]
      rfl

/-- Two blocks with one event each, from a node that answers for one event: the two-block range is split into
    itself and an empty range, and fetching never returns. -/
theorem two_blocks_fetched_for_ever : ∃ log : Nat → List String, (∀ b, (log b).length ≤ 1) ∧
    ∀ fuel, (fetchAll (limited log 1) fuel 0 1).run.run () = none := by
  refine ⟨fun b => if b ≤ 1 then ["deposit"] else [], ?_, ?_⟩
  · intro b
    dsimp only
    split <;> simp
  · intro fuel
    have hiter : getPastEventsIter 0 1 = [(0, 1)] := by decide +kernel
    have hstuck : (getPastEvents (limited (fun b => if b ≤ 1 then ["deposit"] else []) 1) fuel 0 1).run.run () =
        none := by
      apply getPastEvents_stuck
      · decide
      · decide
    rw [fetchAll, hiter, forEachEvent, List.foldlM_cons, ExceptT.run_bind, StateT.run_bind, ExceptT.run_bind,
      StateT.run_bind, hstuck]
    rfl

end Monitor
end ThunderBridge
