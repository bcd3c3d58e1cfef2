import ThunderBridge.Validator.Scans

/-!
# `Validator.OldWatcher` — the watcher before the batches

`watcher.js` fetches everything from its cursor to the confirmed head in one query and then moves the cursor. It
is run side by side with `EventWatcher` here, on the same `startBlock` and the same content of the store: what
the two scan up to one confirmed head (`watchers_scan_same_iff`).

Within a process each of them scans exactly the blocks after the cursor it loaded, so everything depends on that
cursor. `watcher.js` starts before `startBlock`, or where the store says; `loadLastProcessedBlock` starts at
`startBlock`, and never below it.
-/

namespace ThunderBridge

/-- The state of `watcher.js`. -/
structure WatcherJs where
  /-- The value under `lastBlockRedisKey`. -/
  stored : Option Nat
  lastProcessedBlock : Nat
  /-- The ranges whose events are in the queue, the newest first. -/
  scanned : List (Nat × Nat)
deriving DecidableEq, Repr

namespace WatcherJs

/-! ## The source -/

/-- `BN.max(config.startBlock.sub(ONE), ZERO)`. -/
def initialBlock (startBlock : Int) : Nat := (max (startBlock - 1) 0).toNat

def getLastProcessedBlock (startBlock : Int) (stored : Option Nat) : Nat :=
  match stored with
  | some result => result
  | none => initialBlock startBlock

/-- A process that has loaded its cursor. -/
def started (startBlock : Int) (stored : Option Nat) : WatcherJs :=
  ⟨stored, getLastProcessedBlock startBlock stored, []⟩

/-- What one call of `main` meets. -/
inductive Answers where
  | lastBlockFailed
  | eventsFailed (lastBlockNumber requiredBlockConfirmations : Nat)
  /-- `processEvents` or `sendToQueue` fails. -/
  | jobFailed (lastBlockNumber requiredBlockConfirmations : Nat)
  /-- The events are in the queue; `written` if redis carries the command out. -/
  | sent (lastBlockNumber requiredBlockConfirmations : Nat) (written : Bool)
deriving DecidableEq, Repr

/-- `main`. Whatever fails before the cursor moves is caught, and the next call starts from the same cursor. -/
def main (w : WatcherJs) : Answers → WatcherJs
  | .lastBlockFailed | .eventsFailed _ _ | .jobFailed _ _ => w
  | .sent lastBlockNumber requiredBlockConfirmations written =>
      let lastBlockToProcess : Int := lastBlockNumber - requiredBlockConfirmations
      if lastBlockToProcess ≤ w.lastProcessedBlock then w
      else
        { lastProcessedBlock := lastBlockToProcess.toNat
          stored := if written then some lastBlockToProcess.toNat else w.stored
          scanned := (w.lastProcessedBlock + 1, lastBlockToProcess.toNat) :: w.scanned }

/-! ## What it scans -/

theorem main_tiles {loaded : Nat} {w : WatcherJs} (h : Ranges.Tiles loaded w.scanned w.lastProcessedBlock)
    (answers : Answers) :
    Ranges.Tiles loaded (w.main answers).scanned (w.main answers).lastProcessedBlock := by
  cases answers with
  | lastBlockFailed | eventsFailed _ _ | jobFailed _ _ => exact h
  | sent lastBlockNumber requiredBlockConfirmations written =>
      simp only [main]
      split
      · exact h
      · rename_i hlast
        exact h.cons _ (by omega)

/-- Every run of the old watcher scans the blocks after the cursor it loaded, up to the one it is at. -/
theorem run_tiles (startBlock : Int) (stored : Option Nat) (calls : List Answers) :
    let w := calls.foldl main (started startBlock stored)
    Ranges.Tiles (getLastProcessedBlock startBlock stored) w.scanned w.lastProcessedBlock := by
  have hrun : ∀ w : WatcherJs,
      Ranges.Tiles (getLastProcessedBlock startBlock stored) w.scanned w.lastProcessedBlock →
      Ranges.Tiles (getLastProcessedBlock startBlock stored) (calls.foldl main w).scanned
        (calls.foldl main w).lastProcessedBlock := by
    induction calls with
    | nil => exact fun w hw => hw
    | cons answers calls ih => exact fun w hw => ih _ (main_tiles hw answers)
  exact hrun _ .nil

end WatcherJs

namespace EventWatcher

variable {D : Type}

/-! ## One process of the new watcher -/

/-- A process that has loaded its cursor. -/
def started (c : Config D) (stored : Option Nat) : EventWatcher D × History :=
  ({ stored := stored
     lastProcessedBlock := loadLastProcessedBlock c stored
     phase := .idle
     promises := []
     returned := []
     accepted := [] },
   { loaded := loadLastProcessedBlock c stored
     scans := []
     earlier := []
     first := some (loadLastProcessedBlock c stored)
     confirmed := 0 })

/-- One step of a process that is not stopped. -/
def InProcess (c : Config D) (p p' : EventWatcher D × History) : Prop :=
  ∃ input, input ≠ .start ∧ input ≠ .crash ∧ step c p.1 input = some p'.1 ∧ p'.2 = observe c p.1 input p.2

variable {c : Config D} {stored : Option Nat}

theorem inProcess_recorded {p p' : EventWatcher D × History} (h : InProcess c p p') : Recorded c p p' := by
  obtain ⟨input, _, _, hstep, hobserve⟩ := h
  exact ⟨input, hstep, hobserve⟩

theorem started_recorded (c : Config D) (stored : Option Nat) :
    Recorded c (fresh stored) (started c stored) := ⟨.start, rfl, rfl⟩

theorem nextRound_ne_down (i : Nat) (eventCount n : Int) : nextRound i eventCount n ≠ .down := by
  unfold nextRound
  split
  · exact Phase.noConfusion
  · split
    · exact Phase.noConfusion
    · split <;> exact Phase.noConfusion

/-- It keeps running, and the cursor it loaded stays the same. -/
theorem inProcess_loaded {p p' : EventWatcher D × History} (h : InProcess c p p') (hup : p.1.phase ≠ .down) :
    p'.1.phase ≠ .down ∧ p'.2.loaded = p.2.loaded := by
  obtain ⟨s, h⟩ := p
  obtain ⟨s', h'⟩ := p'
  obtain ⟨input, hstart, hcrash, hstep, rfl : h' = observe c s input h⟩ := h
  have hloaded : (observe c s input h).loaded = h.loaded := by
    unfold observe
    split
    · exact absurd rfl hstart
    · rfl
    · rfl
    · rfl
  refine ⟨?_, hloaded⟩
  cases input with
  | start => exact absurd rfl hstart
  | crash => exact absurd rfl hcrash
  | resolve k =>
      obtain ⟨task, _, rfl⟩ := step_resolve_inv hstep
      exact hup
  | reject k =>
      obtain ⟨task, _, rfl⟩ := step_reject_inv hstep
      exact hup
  | lastBlock lastBlockNumber requiredBlockConfirmations =>
      obtain ⟨i, eventCount, _, rfl | ⟨_, rfl⟩⟩ := step_lastBlock_inv hstep
      · exact nextRound_ne_down i eventCount (-1)
      · exact Phase.noConfusion
  | run =>
      obtain ⟨_, rfl⟩ := step_run_inv hstep
      exact Phase.noConfusion
  | events =>
      obtain ⟨i, eventCount, fromBlock, toBlock, _, rfl⟩ := step_events_inv hstep
      exact Phase.noConfusion
  | written =>
      obtain ⟨i, eventCount, count, _, rfl⟩ := step_written_inv hstep
      exact Phase.noConfusion
  | lastBlockFailed | eventsFailed | updated | updateFailed =>
      obtain ⟨i, eventCount, n, _, rfl⟩ := step_round_inv (by simp) hstep
      exact nextRound_ne_down i eventCount n

/-- Every run of one process scans the blocks after the cursor it loaded, up to the one in memory. -/
theorem process_tiles {p : EventWatcher D × History}
    (hrun : Relation.ReflTransGen (InProcess c) (started c stored) p) :
    Ranges.Tiles (loadLastProcessedBlock c stored) (p.2.scans.map Scan.range) p.1.lastProcessedBlock := by
  have hrecorded : Relation.ReflTransGen (Recorded c) (fresh stored) p :=
    .head (started_recorded c stored) (hrun.lift id fun _ _ => inProcess_recorded)
  have hp := run_partitioned hrecorded
  obtain ⟨hup, hloaded⟩ : p.1.phase ≠ .down ∧ p.2.loaded = loadLastProcessedBlock c stored := by
    apply Calls.steps_invariant (P := fun p => p.1.phase ≠ .down ∧ p.2.loaded = loadLastProcessedBlock c stored)
      _ hrun ⟨Phase.noConfusion, rfl⟩
    intro q q' hq hstep
    obtain ⟨hup, hloaded⟩ := inProcess_loaded hstep hq.1
    exact ⟨hup, hloaded.trans hq.2⟩
  rw [← hloaded, (hp.running hup).1]
  exact hp.tiles

/-! ## Side by side -/

/-- A watcher that loaded a cursor and is at another one has caught up with a confirmed head: it is there, or the
    head is not above where it started. -/
def CaughtUp (loaded lastProcessedBlock : Nat) (confirmed : Int) : Prop :=
  (lastProcessedBlock : Int) = max (loaded : Int) confirmed

instance (loaded lastProcessedBlock : Nat) (confirmed : Int) :
    Decidable (CaughtUp loaded lastProcessedBlock confirmed) :=
  inferInstanceAs (Decidable ((lastProcessedBlock : Int) = max (loaded : Int) confirmed))

/-- The stored cursor is not below `startBlock`, or nothing is confirmed after it; with an empty store, no block
    from `startBlock` on is confirmed. -/
def SameFrom (c : Config D) (stored : Option Nat) (confirmed : Int) : Prop :=
  match stored with
  | some b => c.startBlock ≤ b ∨ confirmed ≤ b
  | none => ∀ b : Nat, c.startBlock ≤ b → confirmed < b

theorem firstBlock_eq (c : Config D) : c.firstBlock = (max c.startBlock 0).toNat := by
  unfold Config.firstBlock
  split <;> omega

/-- **The two watchers scan the same blocks**, and with an empty store all confirmed ones from `startBlock` on,
    exactly when `SameFrom` holds. -/
theorem watchers_scan_same_iff {calls : List WatcherJs.Answers} {w : WatcherJs}
    (hw : w = calls.foldl WatcherJs.main (WatcherJs.started c.startBlock stored))
    {p : EventWatcher D × History} (hrun : Relation.ReflTransGen (InProcess c) (started c stored) p)
    {confirmed : Int}
    (hold : CaughtUp (WatcherJs.getLastProcessedBlock c.startBlock stored) w.lastProcessedBlock confirmed)
    (hnew : CaughtUp (loadLastProcessedBlock c stored) p.1.lastProcessedBlock confirmed) :
    ((∀ b, Ranges.Covers w.scanned b ↔ Ranges.Covers (p.2.scans.map Scan.range) b) ∧
      (stored = none → ∀ b : Nat, c.startBlock ≤ b → (b : Int) ≤ confirmed →
        Ranges.Covers w.scanned b ∧ Ranges.Covers (p.2.scans.map Scan.range) b)) ↔
      SameFrom c stored confirmed := by
  have htiles := WatcherJs.run_tiles c.startBlock stored calls
  rw [← hw] at htiles
  simp only [htiles.covers_iff, (process_tiles hrun).covers_iff]
  unfold CaughtUp at hold hnew
  cases stored with
  | some r =>
      have hload : loadLastProcessedBlock c (some r) = max r c.firstBlock := rfl
      have hget : WatcherJs.getLastProcessedBlock c.startBlock (some r) = r := rfl
      rw [hget] at hold ⊢
      rw [hload, firstBlock_eq] at hnew ⊢
      unfold SameFrom
      constructor
      · rintro ⟨hsame, _⟩
        have hfirst := hsame (r + 1)
        omega
      · intro hcond
        refine ⟨fun b => ?_, fun he => absurd he (Option.some_ne_none r)⟩
        omega
  | none =>
      have hload : loadLastProcessedBlock c none = c.firstBlock := rfl
      have hget : WatcherJs.getLastProcessedBlock c.startBlock none = (max (c.startBlock - 1) 0).toNat := rfl
      rw [hget] at hold ⊢
      rw [hload, firstBlock_eq] at hnew ⊢
      unfold SameFrom
      constructor
      · rintro ⟨_, hall⟩ b hb
        by_contra hconf
        have hboth := hall rfl (max c.startBlock 0).toNat (by omega) (by omega)
        omega
      · intro hcond
        have hnone := hcond (max c.startBlock 0).toNat (by omega)
        refine ⟨fun b => ?_, fun _ b hb hconf => ?_⟩
        · omega
        · have hlt := hcond b hb
          omega

theorem inProcess_of_play {inputs : List Input} {p p' : EventWatcher D × History}
    (hinputs : ∀ input ∈ inputs, input ≠ .start ∧ input ≠ .crash) (h : play c p inputs = some p') :
    Relation.ReflTransGen (InProcess c) p p' := by
  induction inputs generalizing p with
  | nil => exact Option.some.inj h ▸ .refl
  | cons input inputs ih =>
      simp only [play, Option.bind_eq_bind, Option.bind_eq_some_iff] at h
      obtain ⟨s, hs, hrest⟩ := h
      obtain ⟨hstart, hcrash⟩ := hinputs input List.mem_cons_self
      have htail := ih (fun input' h' => hinputs input' (List.mem_cons_of_mem _ h')) hrest
      exact .head ⟨input, hstart, hcrash, hs, rfl⟩ htail

/-- Both scan block 1 from a stored cursor 0. -/
theorem watchers_scan_same_one_block : ∃ p : EventWatcher String × History, ∃ w : WatcherJs,
    w.scanned = [(1, 1)] ∧ p.2.scans = [⟨1, 1, 1⟩] ∧
      ∀ b, Ranges.Covers w.scanned b ↔ Ranges.Covers (p.2.scans.map Scan.range) b := by
  have heval : (play oneDeposit (started oneDeposit (some 0)) [.run, .lastBlock 5 4, .events]).map
      (fun p => (p.1.lastProcessedBlock, p.2.scans)) = some (1, [⟨1, 1, 1⟩]) := by
    decide +kernel
  obtain ⟨p, hplay, hp⟩ := Option.map_eq_some_iff.mp heval
  obtain ⟨hcursor, hscans⟩ := Prod.mk.inj hp
  have hrun := inProcess_of_play (by decide) hplay
  have hnew : CaughtUp (loadLastProcessedBlock oneDeposit (some 0)) p.1.lastProcessedBlock 1 := by
    rw [hcursor]
    decide
  have hold : CaughtUp (WatcherJs.getLastProcessedBlock 0 (some 0))
      ([.sent 5 4 true].foldl WatcherJs.main (WatcherJs.started 0 (some 0))).lastProcessedBlock 1 := by
    decide
  have hsame := (watchers_scan_same_iff rfl hrun hold hnew).mpr
    (Or.inl (Int.le_refl 0))
  exact ⟨p, _, by decide, hscans, hsame.1⟩

/-- With an empty store and `startBlock` 1 the deposit in block 1 is scanned by `watcher.js` and skipped by
    `EventWatcher`; both have caught up with block 1. -/
theorem start_block_skipped : ∃ (c : Config String) (p : EventWatcher String × History) (w : WatcherJs),
    c.startBlock = 1 ∧ c.logs 1 = ["deposit"] ∧
      w = [.sent 5 4 true].foldl WatcherJs.main (WatcherJs.started c.startBlock none) ∧
      Relation.ReflTransGen (InProcess c) (started c none) p ∧
      CaughtUp (WatcherJs.getLastProcessedBlock c.startBlock none) w.lastProcessedBlock 1 ∧
      CaughtUp (loadLastProcessedBlock c none) p.1.lastProcessedBlock 1 ∧
      Ranges.Covers w.scanned 1 ∧ ¬ Ranges.Covers (p.2.scans.map Scan.range) 1 := by
  have heval : (play { oneDeposit with startBlock := 1 } (started { oneDeposit with startBlock := 1 } none)
      [.run, .lastBlock 5 4]).map (fun p => (p.1.lastProcessedBlock, p.2.scans)) = some (1, []) := by
    decide +kernel
  obtain ⟨p, hplay, hp⟩ := Option.map_eq_some_iff.mp heval
  obtain ⟨hcursor, hscans⟩ := Prod.mk.inj hp
  refine ⟨{ oneDeposit with startBlock := 1 }, p, _, rfl, by decide, rfl,
    inProcess_of_play (by decide) hplay, by decide, ?_, ⟨(1, 1), by decide⟩, ?_⟩
  · rw [hcursor]
    decide
  · rw [hscans]
    rintro ⟨r, hr, _⟩
    exact absurd hr List.not_mem_nil

end EventWatcher
end ThunderBridge
