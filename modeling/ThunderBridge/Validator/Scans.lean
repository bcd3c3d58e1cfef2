import ThunderBridge.Lib.Ranges
import ThunderBridge.Validator.Watcher

/-!
# `Validator.Scans` — the ranges of blocks that the event watcher scans

A range is scanned when `getEvents` returns its events. `History` records the scans beside the watcher: those of
the running process, those of the processes before it, and the cursors they loaded. `observe` keeps it along a
run.

Within a process the scans cut the blocks after the loaded cursor into consecutive batches, and across processes
nothing between the first loaded cursor and the stored one is left out (`watcher_range_partition`).
-/

namespace ThunderBridge
namespace EventWatcher

variable {D : Type}

/-! ## The history -/

/-- A `getEvents` that returned; `confirmed` is the head less the required confirmations, as `do` read them. -/
structure Scan where
  fromBlock : Nat
  toBlock : Nat
  confirmed : Int
deriving DecidableEq, Repr

def Scan.range (r : Scan) : Nat × Nat := (r.fromBlock, r.toBlock)

/-- What a watcher did so far. -/
structure History where
  /-- The cursor that the last started process loaded. -/
  loaded : Nat
  /-- Its scans, the newest first. -/
  scans : List Scan
  /-- The scans of the processes before it. -/
  earlier : List Scan
  /-- The cursor that the first process loaded. -/
  first : Option Nat
  /-- The last confirmed head that was read. -/
  confirmed : Int
deriving DecidableEq, Repr

namespace History

def empty : History := ⟨0, [], [], none, 0⟩

/-- The end of the last scan, or the loaded cursor before the first one. -/
def reached (h : History) : Nat := (h.scans.head?.map Scan.toBlock).getD h.loaded

/-- Every scan so far. -/
def all (h : History) : List Scan := h.scans ++ h.earlier

end History

/-- What a step adds to the history. -/
def observe (c : Config D) (s : EventWatcher D) (input : Input) (h : History) : History :=
  match input, s.phase with
  | .start, .down =>
      { h with
        loaded := loadLastProcessedBlock c s.stored
        scans := []
        earlier := h.all
        first := h.first.or (some (loadLastProcessedBlock c s.stored)) }
  | .lastBlock lastBlockNumber requiredBlockConfirmations, .starting _ _ =>
      { h with confirmed := lastBlockNumber - requiredBlockConfirmations }
  | .events, .fetching _ _ fromBlock toBlock => { h with scans := ⟨fromBlock, toBlock, h.confirmed⟩ :: h.scans }
  | _, _ => h

/-- One step, and its record. -/
def Recorded (c : Config D) (p p' : EventWatcher D × History) : Prop :=
  ∃ input, step c p.1 input = some p'.1 ∧ p'.2 = observe c p.1 input p.2

/-- Before the first process, with anything in the store. -/
def fresh (stored : Option Nat) : EventWatcher D × History := ({ initial with stored := stored }, .empty)

/-! ## The invariant -/

/-- A batch that is being fetched starts after the cursor, has at most 501 blocks, and is confirmed. -/
def Phase.Within (lastProcessedBlock : Nat) (confirmed : Int) : Phase → Prop
  | .fetching _ _ fromBlock toBlock =>
      fromBlock = lastProcessedBlock + 1 ∧ lastProcessedBlock < toBlock ∧ toBlock ≤ fromBlock + BATCHSIZE ∧
        (toBlock : Int) ≤ confirmed
  | _ => True

/-- What holds of a watcher and its history along every run. -/
structure Partitioned (c : Config D) (s : EventWatcher D) (h : History) : Prop where
  tiles : Ranges.Tiles h.loaded (h.scans.map Scan.range) h.reached
  small : ∀ r ∈ h.all, r.fromBlock ≤ r.toBlock ∧ r.toBlock ≤ r.fromBlock + BATCHSIZE
  confirmed : ∀ r ∈ h.all, (r.toBlock : Int) ≤ r.confirmed
  running : s.phase ≠ .down → s.lastProcessedBlock = h.reached ∧ h.first ≠ none
  persisted : h.first ≠ none → ∀ b, s.stored = some b → b ≤ h.reached
  /-- What lies before the loaded cursor was scanned by earlier processes. -/
  first : ∀ f, h.first = some f →
    c.firstBlock ≤ f ∧ ∀ n, f < n → n ≤ h.loaded → Ranges.Covers (h.earlier.map Scan.range) n
  within : s.phase.Within s.lastProcessedBlock h.confirmed

section Steps

variable {c : Config D} {s s' : EventWatcher D} {h h' : History}

theorem partitioned_fresh (stored : Option Nat) :
    Partitioned c (fresh (D := D) stored).1 (fresh (D := D) stored).2 where
  tiles := .nil
  small r hr := absurd hr List.not_mem_nil
  confirmed r hr := absurd hr List.not_mem_nil
  running hup := absurd rfl hup
  persisted hne := absurd rfl hne
  first f hf := absurd hf (by simp [fresh, History.empty])
  within := trivial

theorem nextRound_within (i : Nat) (eventCount n : Int) (b : Nat) (confirmed : Int) :
    (nextRound i eventCount n).Within b confirmed := by
  unfold nextRound
  split
  · trivial
  · split
    · trivial
    · split <;> trivial

/-- A step that moves the phase only, and reads perhaps a new head. -/
theorem Partitioned.phase (hp : Partitioned c s h) {phase : Phase} {confirmed : Int}
    (hup : s.phase ≠ .down) (hwithin : phase.Within s.lastProcessedBlock confirmed) :
    Partitioned c { s with phase := phase } { h with confirmed := confirmed } :=
  ⟨hp.tiles, hp.small, hp.confirmed, fun _ => hp.running hup, hp.persisted, hp.first, hwithin⟩

theorem Partitioned.next (hp : Partitioned c s h) (hup : s.phase ≠ .down) (i : Nat) (eventCount n : Int) :
    Partitioned c { s with phase := nextRound i eventCount n } h :=
  hp.phase hup (nextRound_within i eventCount n _ _)

/-- Every block between the first loaded cursor and the stored one was scanned. -/
theorem Partitioned.covered (hp : Partitioned c s h) {f b n : Nat} (hf : h.first = some f)
    (hb : s.stored = some b) (hlt : f < n) (hle : n ≤ b) : Ranges.Covers (h.all.map Scan.range) n := by
  have hne : h.first ≠ none := by
    rw [hf]
    exact Option.some_ne_none f
  have hreached : n ≤ h.reached := Nat.le_trans hle (hp.persisted hne b hb)
  rw [History.all, List.map_append]
  by_cases hloaded : n ≤ h.loaded
  · obtain ⟨r, hr, hin⟩ := (hp.first f hf).2 n hlt hloaded
    exact ⟨r, List.mem_append_right _ hr, hin⟩
  · obtain ⟨r, hr, hin⟩ := (hp.tiles.covers_iff n).mpr ⟨by omega, hreached⟩
    exact ⟨r, List.mem_append_left _ hr, hin⟩

theorem firstBlock_le_load (stored : Option Nat) : c.firstBlock ≤ loadLastProcessedBlock c stored := by
  unfold loadLastProcessedBlock
  split
  · exact Nat.le_max_right _ _
  · exact Nat.le_refl _

/-- A new process loads its cursor. -/
theorem Partitioned.start (hp : Partitioned c s h) :
    Partitioned c
      { s with
        lastProcessedBlock := loadLastProcessedBlock c s.stored
        phase := .idle
        promises := [] }
      { h with
        loaded := loadLastProcessedBlock c s.stored
        scans := []
        earlier := h.all
        first := h.first.or (some (loadLastProcessedBlock c s.stored)) } := by
  refine ⟨.nil, fun r hr => hp.small r hr, fun r hr => hp.confirmed r hr, fun _ => ⟨rfl, ?_⟩, ?_, ?_, trivial⟩
  · cases h.first <;> simp
  · intro _ b hb
    have hb' : s.stored = some b := hb
    show b ≤ loadLastProcessedBlock c s.stored
    rw [hb']
    exact Nat.le_max_left _ _
  · intro f hf
    have hload := firstBlock_le_load (c := c) s.stored
    cases hfirst : h.first with
    | none =>
        rw [hfirst] at hf
        obtain rfl := Option.some.inj hf
        exact ⟨hload, fun n hlt hle => absurd hle (Nat.not_le.mpr hlt)⟩
    | some f' =>
        rw [hfirst] at hf
        obtain rfl := Option.some.inj hf
        obtain ⟨hblock, _⟩ := hp.first _ hfirst
        refine ⟨hblock, ?_⟩
        intro n hlt hle
        -- a cursor after the first one is a stored one
        have hstored : ∃ b, s.stored = some b ∧ n ≤ b := by
          have hle' : n ≤ loadLastProcessedBlock c s.stored := hle
          unfold loadLastProcessedBlock at hle'
          split at hle'
          · rename_i b hb
            exact ⟨b, hb, by omega⟩
          · omega
        obtain ⟨b, hb, hnb⟩ := hstored
        exact hp.covered hfirst hb hlt hnb

/-- A batch is scanned, and the cursor in memory moves to its end. -/
theorem Partitioned.events (hp : Partitioned c s h) {i : Nat} {eventCount : Int} {fromBlock toBlock : Nat}
    (hphase : s.phase = .fetching i eventCount fromBlock toBlock) (promises : List (EventTask D × PromiseState))
    (returned : List (EventData D)) (n : Nat) :
    Partitioned c
      { s with
        promises := promises
        returned := returned
        lastProcessedBlock := toBlock
        phase := .updating i eventCount n false }
      { h with scans := ⟨fromBlock, toBlock, h.confirmed⟩ :: h.scans } := by
  have hup : s.phase ≠ .down := by
    rw [hphase]
    exact Phase.noConfusion
  obtain ⟨hcursor, hfirst⟩ := hp.running hup
  have hwithin := hp.within
  rw [hphase] at hwithin
  obtain ⟨rfl, hlt, hsmall, hconfirmed⟩ := hwithin
  refine ⟨?_, ?_, ?_, fun _ => ⟨rfl, hfirst⟩, ?_, hp.first, trivial⟩
  · have htiles := hp.tiles
    rw [← hcursor] at htiles
    exact htiles.cons toBlock hlt
  · intro r hr
    rcases List.mem_cons.mp hr with rfl | hold
    · exact ⟨hlt, hsmall⟩
    · exact hp.small r hold
  · intro r hr
    rcases List.mem_cons.mp hr with rfl | hold
    · exact hconfirmed
    · exact hp.confirmed r hold
  · intro hne b hb
    have hold := hp.persisted hne b hb
    rw [← hcursor] at hold
    exact Nat.le_trans hold (Nat.le_of_lt hlt)

theorem batchEnd_within {b : Nat} {last : Int} (hlast : ¬ last ≤ b) :
    batchEnd (b + 1) last.toNat ≤ b + 1 + BATCHSIZE ∧ (batchEnd (b + 1) last.toNat : Int) ≤ last := by
  unfold batchEnd BATCHSIZE
  split <;> omega

/-- **One step.** -/
theorem recorded_partitioned {p p' : EventWatcher D × History} (hp : Partitioned c p.1 p.2)
    (hstep : Recorded c p p') : Partitioned c p'.1 p'.2 := by
  obtain ⟨s, h⟩ := p
  obtain ⟨s', h'⟩ := p'
  obtain ⟨input, (hinput : step c s input = some s'), rfl : h' = observe c s input h⟩ := hstep
  -- within a process
  have hup {phase : Phase} (hphase : s.phase = phase) (hne : phase ≠ .down) : s.phase ≠ .down := hphase ▸ hne
  cases input with
  | start =>
      obtain ⟨hphase, rfl⟩ := step_start_inv hinput
      simp only [observe, hphase]
      exact hp.start
  | crash =>
      obtain rfl := Option.some.inj hinput
      exact ⟨hp.tiles, hp.small, hp.confirmed, fun hup => absurd rfl hup, hp.persisted, hp.first, trivial⟩
  | run =>
      obtain ⟨hphase, rfl⟩ := step_run_inv hinput
      exact hp.phase (hup hphase Phase.noConfusion) trivial
  | lastBlock lastBlockNumber requiredBlockConfirmations =>
      obtain ⟨i, eventCount, hphase, hnext⟩ := step_lastBlock_inv hinput
      simp only [observe, hphase]
      rcases hnext with rfl | ⟨hlast, rfl⟩
      · exact hp.phase (hup hphase Phase.noConfusion) (nextRound_within ..)
      · obtain ⟨hsmall, hconfirmed⟩ := batchEnd_within hlast
        exact hp.phase (hup hphase Phase.noConfusion) ⟨rfl, lt_batchEnd hlast, hsmall, hconfirmed⟩
  | events =>
      obtain ⟨i, eventCount, fromBlock, toBlock, hphase, rfl⟩ := step_events_inv hinput
      simp only [observe, hphase]
      exact hp.events hphase _ _ _
  | written =>
      obtain ⟨i, eventCount, count, hphase, rfl⟩ := step_written_inv hinput
      obtain ⟨hcursor, hfirst⟩ := hp.running (hup hphase Phase.noConfusion)
      refine ⟨hp.tiles, hp.small, hp.confirmed, fun _ => ⟨hcursor, hfirst⟩, ?_, hp.first, trivial⟩
      intro _ b hb
      exact Option.some.inj hb ▸ Nat.le_of_eq hcursor
  | lastBlockFailed | eventsFailed | updated | updateFailed =>
      obtain ⟨i, eventCount, n, hrunning, rfl⟩ := step_round_inv (by simp) hinput
      exact hp.next hrunning i eventCount n
  | resolve k =>
      obtain ⟨task, _, rfl⟩ := step_resolve_inv hinput
      exact ⟨hp.tiles, hp.small, hp.confirmed, hp.running, hp.persisted, hp.first, hp.within⟩
  | reject k =>
      obtain ⟨task, _, rfl⟩ := step_reject_inv hinput
      exact ⟨hp.tiles, hp.small, hp.confirmed, hp.running, hp.persisted, hp.first, hp.within⟩

theorem run_partitioned {stored : Option Nat} {p : EventWatcher D × History}
    (hrun : Relation.ReflTransGen (Recorded c) (fresh stored) p) : Partitioned c p.1 p.2 :=
  Calls.steps_invariant (P := fun p => Partitioned c p.1 p.2) (fun _ _ hp hstep => recorded_partitioned hp hstep)
    hrun (partitioned_fresh stored)

/-- **The watcher partitions the blocks.** In every run, whatever the node, redis and the queue answer and
    wherever a process stops: the scans of a process are consecutive batches from the cursor it loaded on, of 1
    to 501 blocks, none above the confirmed head it was read with; a failed `getEvents` moves neither cursor; the
    stored cursor is never ahead of the last scan; and every block between the first cursor that was loaded and
    the stored one was scanned. -/
theorem watcher_range_partition {stored : Option Nat} {p : EventWatcher D × History}
    (hrun : Relation.ReflTransGen (Recorded c) (fresh stored) p) :
    Ranges.Tiles p.2.loaded (p.2.scans.map Scan.range) p.2.reached ∧
    ((p.2.scans.map Scan.range).Pairwise fun r r' => r'.2 < r.1) ∧
    (∀ r ∈ p.2.all, 1 ≤ r.toBlock + 1 - r.fromBlock ∧ r.toBlock + 1 - r.fromBlock ≤ 501 ∧
      (r.toBlock : Int) ≤ r.confirmed) ∧
    (p.1.phase ≠ .down → p.1.lastProcessedBlock = p.2.reached) ∧
    (∀ s', step c p.1 .eventsFailed = some s' →
      s'.lastProcessedBlock = p.1.lastProcessedBlock ∧ s'.stored = p.1.stored) ∧
    (p.2.first ≠ none → ∀ b, p.1.stored = some b → b ≤ p.2.reached) ∧
    ∀ f b n, p.2.first = some f → p.1.stored = some b → f < n → n ≤ b →
      Ranges.Covers (p.2.all.map Scan.range) n := by
  have hp := run_partitioned hrun
  refine ⟨hp.tiles, hp.tiles.disjoint, ?_, fun hup => (hp.running hup).1, ?_, hp.persisted, ?_⟩
  · intro r hr
    obtain ⟨hnonempty, hsmall⟩ := hp.small r hr
    have hsmall' : r.toBlock ≤ r.fromBlock + 500 := hsmall
    exact ⟨by omega, by omega, hp.confirmed r hr⟩
  · intro s' hs'
    simp only [step] at hs'
    split at hs'
    · obtain rfl := Option.some.inj hs'
      exact ⟨rfl, rfl⟩
    · exact absurd hs' (by simp)
  · intro f b n hf hb hlt hle
    exact hp.covered hf hb hlt hle

end Steps

/-- The state after some inputs; `none` where one does not fit. -/
def play (c : Config D) : EventWatcher D × History → List Input → Option (EventWatcher D × History)
  | p, [] => some p
  | p, input :: inputs => do
      let s ← step c p.1 input
      play c (s, observe c p.1 input p.2) inputs

theorem recorded_of_play {c : Config D} {inputs : List Input} {p p' : EventWatcher D × History}
    (h : play c p inputs = some p') : Relation.ReflTransGen (Recorded c) p p' := by
  induction inputs generalizing p with
  | nil => exact Option.some.inj h ▸ .refl
  | cons input inputs ih =>
      simp only [play, Option.bind_eq_bind, Option.bind_eq_some_iff] at h
      obtain ⟨s, hs, hrest⟩ := h
      exact .head ⟨input, hs, rfl⟩ (ih hrest)

/-- The first `getEvents` fails, a batch is scanned and stored, and the process stops; the next one goes on after it and
    stops before it stores its second batch. -/
theorem watcher_range_partition_restarted : ∃ p : EventWatcher String × History,
    Relation.ReflTransGen (Recorded oneDeposit) (fresh none) p ∧ p.1.stored = some 600 ∧
      p.2.earlier = [⟨1, 501, 600⟩] ∧ p.2.scans = [⟨601, 601, 601⟩, ⟨502, 600, 600⟩] ∧
      Ranges.Tiles p.2.loaded (p.2.scans.map Scan.range) p.2.reached ∧
      ∀ n, 0 < n → n ≤ 600 → Ranges.Covers (p.2.all.map Scan.range) n := by
  let inputs : List Input :=
    [.start, .run, .lastBlock 605 5, .eventsFailed, .run, .lastBlock 605 5, .events, .written, .crash,
      .start, .run, .lastBlock 605 5, .events, .written, .updated, .lastBlock 606 5, .events]
  have heval : (play oneDeposit (fresh none) inputs).map
      (fun p => (p.1.stored, p.2.first, p.2.earlier, p.2.scans)) =
        some (some 600, some 0, [⟨1, 501, 600⟩], [⟨601, 601, 601⟩, ⟨502, 600, 600⟩]) := by
    decide +kernel
  obtain ⟨p, hplay, hp⟩ := Option.map_eq_some_iff.mp heval
  simp only [Prod.mk.injEq] at hp
  obtain ⟨hstored, hfirst, hearlier, hscans⟩ := hp
  have hrun := recorded_of_play hplay
  obtain ⟨htiles, _, _, _, _, _, hcovers⟩ := watcher_range_partition hrun
  exact ⟨p, hrun, hstored, hearlier, hscans, htiles, fun n => hcovers 0 600 n hfirst hstored⟩

end EventWatcher
end ThunderBridge
