import ThunderBridge.Contracts.HomeBridge.Completions
import ThunderBridge.Contracts.HomeBridge.Custody
import ThunderBridge.Solvency.Crediting
import ThunderBridge.Solvency.Relayable
import ThunderBridge.Validator.RecipientOverride

/-!
# `Ui.TxStore` — how the user interface follows a transfer

`TxStore.js` follows each transaction that it sent: until it is mined, until it has eight confirmations, and until the
bridge of the other side is done with it. The last is polled (`waitUntilProcessed` of the two stores) or read off the
events of that bridge (`getEvents`). All this runs in callbacks and timers, for any number of transactions at once, over a wallet that
the user may connect to the other network meanwhile.

`success_of_run`: whatever the order, "received" is shown only of what the bridge of the other side has executed or
relayed, once and with enough signatures. Whether its token then paid is not asked by the user interface: a bridge
marks a transfer before it pays, and some count it as done when the payment fails.
`processed_iff_credited`: the poll for a deposit ends exactly when the address that was typed is credited, and it does
end once the validators are done with the transfer.
-/

namespace ThunderBridge

/-! ## The transactions -/

/-- What is kept of a transaction that was sent. The form does not check the recipient; here it is an address. -/
structure SentTransfer where
  hash : Bytes32
  /-- `txsValues[hash]`. -/
  sentValue : UInt256
  recipient : JsString
  address : Address
  spelled : RecipientOverride.Spelled recipient address

/-- `soliditySha3(recipient, value, txHash)`: hexadecimal digits are bytes, the decimal value is a word. -/
def soliditySha3 {H : Type} (K : CollisionFree H) (recipient : JsString) (value : UInt256) (txHash : Bytes32) :
    Option H :=
  (Hex.decode (strip0x recipient)).map fun bytes => K.hash (Chunk.raw (bytes ++ packWord value ++ packWord txHash))

/-- `HomeStore.waitUntilProcessed` at one poll. -/
def HomeStore.processed {H W : Type} (K : CollisionFree H) (s : Home H W) (t : SentTransfer) : Bool :=
  match soliditySha3 K t.recipient t.sentValue t.hash with
  | some messageHash => isAlreadyProcessed (s.numAffirmationsSigned messageHash)
  | none => false

/-- `ForeignStore.waitUntilProcessed` at one poll. -/
def ForeignStore.processed {F : Type} (s : Foreign F) (t : SentTransfer) : Bool := s.relayedMessages t.hash

/-! ## The stores -/

/-- Why a transfer is taken for received. -/
inductive Confirmation where
  | processed (t : SentTransfer)
  | affirmationCompleted (transactionHash : Bytes32)
  | relayed (t : SentTransfer)
  | relayedMessage (transactionHash : Bytes32)

inductive Alert where
  | transactionRejected
  | minedWithErrors (hash : Bytes32)
  | success (c : Confirmation)

/-- `setTimeout` of two seconds. -/
inductive Timer where
  | setLoading
  | pushSuccess (c : Confirmation)

structure AlertStore where
  alerts : List Alert
  showLoading : Bool
  loadingStepIndex : Int
  blockConfirmations : Int

/-- The function that polls next for a transaction. -/
inductive PollFunction where
  | getTxReceipt
  | getTxStatus
  | homeWaitUntilProcessed
  | foreignWaitUntilProcessed
deriving DecidableEq, Repr

/-- What `getTransactionReceipt` answers for a mined transaction. -/
structure TxReceipt where
  blockNumber : Nat
  status : Bool
  /-- The number of logs. -/
  logs : Nat
deriving DecidableEq, Repr

/-- `REACT_APP_HOME_WITHOUT_EVENTS` and `REACT_APP_FOREIGN_WITHOUT_EVENTS`. -/
structure WithoutEvents where
  home : Bool
  foreign : Bool

/-- The callbacks and timers under way, and what the stores hold. -/
structure TxStore where
  polling : List (SentTransfer × PollFunction)
  /-- `waitingForConfirmation` of the home and of the foreign store. -/
  homeWaiting : List Bytes32
  foreignWaiting : List Bytes32
  /-- The `RelayedMessage` events whose receipts are under way, by transaction hash. -/
  receipts : List Bytes32
  timers : List Timer
  alertStore : AlertStore

namespace TxStore

def initial : TxStore := ⟨[], [], [], [], [], ⟨[], false, -1, 0⟩⟩

/-- The last of the four loading steps is shown for two seconds. -/
def setLoadingStepIndex (u : TxStore) (index : Int) : TxStore :=
  { u with
    timers := if index = 3 then .setLoading :: u.timers else u.timers
    alertStore := { u.alertStore with loadingStepIndex := index } }

def setLoading (u : TxStore) (status : Bool) : TxStore :=
  { u with alertStore := ⟨u.alertStore.alerts, status, 0, 0⟩ }

def setBlockConfirmations (u : TxStore) (blocks : Int) : TxStore :=
  { u with alertStore := { u.alertStore with blockConfirmations := blocks } }

def push (u : TxStore) (a : Alert) : TxStore :=
  { u with alertStore := { u.alertStore with alerts := u.alertStore.alerts ++ [a] } }

/-- The last loading step, and the success in two seconds. -/
def confirm (u : TxStore) (c : Confirmation) : TxStore :=
  let u := u.setLoadingStepIndex 3
  { u with timers := .pushSuccess c :: u.timers }

/-- `doSend`: the wallet has the transaction. -/
def transactionHash (u : TxStore) (t : SentTransfer) : TxStore :=
  let u := u.setLoadingStepIndex 1
  { u with polling := (t, .getTxReceipt) :: u.polling }

/-- `doSend`: the wallet has an error. -/
def rejected (u : TxStore) : TxStore := (u.setLoading false).push .transactionRejected

/-- A set of hashes. -/
def addWaiting (waiting : List Bytes32) (hash : Bytes32) : List Bytes32 := waiting.insert hash

def isStatusSuccess (r : TxReceipt) : Bool := r.status || r.logs != 0

/-- `getTxStatus` with a receipt: what the stores hold then, and what polls next for the transaction. The side is
    that of the network the wallet is connected to. -/
def getTxStatus (withoutEvents : WithoutEvents) (u : TxStore) (t : SentTransfer) (onHome : Bool)
    (latestBlockNumber : Nat) (r : TxReceipt) : TxStore × Option PollFunction :=
  if isStatusSuccess r then
    let blockConfirmations : Int := latestBlockNumber - r.blockNumber
    if 8 ≤ blockConfirmations then
      let u := (u.setBlockConfirmations 8).setLoadingStepIndex 2
      if onHome then
        if withoutEvents.foreign then (u, some .foreignWaitUntilProcessed)
        else ({ u with foreignWaiting := addWaiting u.foreignWaiting t.hash }, none)
      else
        if withoutEvents.home then (u, some .homeWaitUntilProcessed)
        else ({ u with homeWaiting := addWaiting u.homeWaiting t.hash }, none)
    else (if 0 < blockConfirmations then u.setBlockConfirmations blockConfirmations else u, some .getTxStatus)
  else ((u.setLoading false).push (.minedWithErrors t.hash), none)

/-- The transaction hash of an `AffirmationCompleted`. -/
def affirmationCompleted {H : Type} : HomeEvent H → Option Bytes32
  | .AffirmationCompleted _ _ transactionHash => some transactionHash
  | _ => none

def relayedMessage : ForeignEvent → Option Bytes32
  | .RelayedMessage _ _ transactionHash => some transactionHash
  | .RecipientRedirected _ _ => none

/-- `HomeStore.getEvents`. -/
def homeEvents {H : Type} (u : TxStore) (events : List (HomeEvent H)) : TxStore :=
  let confirmationEvents := (events.filterMap affirmationCompleted).filter fun hash => hash ∈ u.homeWaiting
  confirmationEvents.foldl
    (fun u hash =>
      let u := u.confirm (.affirmationCompleted hash)
      { u with homeWaiting := u.homeWaiting.erase hash }) u

/-- `ForeignStore.getEvents`: the receipts of the transactions with the events are asked for. -/
def foreignEvents (u : TxStore) (events : List ForeignEvent) : TxStore :=
  let confirmationEvents := (events.filterMap relayedMessage).filter fun hash => hash ∈ u.foreignWaiting
  { u with receipts := confirmationEvents ++ u.receipts }

/-- The answer to one of them, which is dropped if the token has not logged a transfer. -/
def foreignReceipt (u : TxStore) (hash : Bytes32) (logs : Nat) : TxStore :=
  if 1 < logs ∧ u.foreignWaiting ≠ [] then
    let u := u.confirm (.relayedMessage hash)
    { u with foreignWaiting := u.foreignWaiting.erase hash }
  else u

def expired (u : TxStore) : Timer → TxStore
  | .setLoading => u.setLoading false
  | .pushSuccess c => u.push (.success c)

end TxStore

/-! ## The system -/

/-- The two chains and the user interface. -/
structure Tracking (H W F : Type) where
  home : Home H W
  foreign : Foreign F
  ui : TxStore

namespace Tracking

variable {H W F : Type}

structure Setting (H : Type) where
  K : CollisionFree H
  ecrecover : Ecrecover H
  homeVariant : HomeVariant
  foreignVariant : ForeignVariant
  withoutEvents : WithoutEvents

/-- One step: of a chain, or of a callback. The events that are read are some of those on the log. -/
inductive Step [DecidableEq H] (c : Setting H) (x : Tracking H W F) : Tracking H W F → Prop where
  | home {home} (h : Home.StepWhen c.K c.ecrecover c.homeVariant (fun _ _ => True) x.home home) :
      Step c x { x with home := home }
  | foreign {foreign} (h : Foreign.StepWhen c.K c.ecrecover c.foreignVariant (fun _ _ => True) x.foreign foreign) :
      Step c x { x with foreign := foreign }
  | transactionHash (t : SentTransfer) : Step c x { x with ui := x.ui.transactionHash t }
  | rejected : Step c x { x with ui := x.ui.rejected }
  | mined {before after t} (polling : x.ui.polling = before ++ (t, .getTxReceipt) :: after) :
      Step c x { x with ui := { x.ui with polling := before ++ (t, .getTxStatus) :: after } }
  | status {before after t u next} (onHome : Bool) (latestBlockNumber : Nat) (r : TxReceipt)
      (polling : x.ui.polling = before ++ (t, .getTxStatus) :: after)
      (answer : TxStore.getTxStatus c.withoutEvents x.ui t onHome latestBlockNumber r = (u, next)) :
      Step c x { x with ui := { u with polling := before ++ next.toList.map (t, ·) ++ after } }
  | homeProcessed {before after t} (polling : x.ui.polling = before ++ (t, .homeWaitUntilProcessed) :: after)
      (processed : HomeStore.processed c.K x.home t = true) :
      Step c x { x with ui := { x.ui with polling := before ++ after }.confirm (.processed t) }
  | foreignProcessed {before after t} (polling : x.ui.polling = before ++ (t, .foreignWaitUntilProcessed) :: after)
      (processed : ForeignStore.processed x.foreign t = true) :
      Step c x { x with ui := { x.ui with polling := before ++ after }.confirm (.relayed t) }
  | homeEvents {events} (logged : events ⊆ x.home.bridge.log.map Prod.snd) :
      Step c x { x with ui := x.ui.homeEvents events }
  | foreignEvents {events} (logged : events ⊆ x.foreign.bridge.log) :
      Step c x { x with ui := x.ui.foreignEvents events }
  | foreignReceipt {before after hash} (logs : Nat) (receipts : x.ui.receipts = before ++ hash :: after) :
      Step c x { x with ui := { x.ui with receipts := before ++ after }.foreignReceipt hash logs }
  | timer {before after timer} (timers : x.ui.timers = before ++ timer :: after) :
      Step c x { x with ui := { x.ui with timers := before ++ after }.expired timer }

end Tracking

/-! ## What the stores show -/

namespace TxStore

/-- Every success that is shown, will be, or may be when a receipt comes, is in `P`. -/
structure Shows (P : Confirmation → Prop) (u : TxStore) : Prop where
  receipts : ∀ hash ∈ u.receipts, P (.relayedMessage hash)
  timers : ∀ c, .pushSuccess c ∈ u.timers → P c
  alerts : ∀ c, .success c ∈ u.alertStore.alerts → P c

variable {P Q : Confirmation → Prop} {u : TxStore}

theorem Shows.mono (h : Shows P u) (hPQ : ∀ c, P c → Q c) : Shows Q u where
  receipts hash hhash := hPQ _ (h.receipts hash hhash)
  timers c hc := hPQ c (h.timers c hc)
  alerts c hc := hPQ c (h.alerts c hc)

theorem initial_shows (P : Confirmation → Prop) : Shows P initial where
  receipts _ hhash := absurd hhash List.not_mem_nil
  timers _ hc := absurd hc List.not_mem_nil
  alerts _ hc := absurd hc List.not_mem_nil

theorem Shows.setLoadingStepIndex (h : Shows P u) (index : Int) : Shows P (u.setLoadingStepIndex index) := by
  refine ⟨h.receipts, ?_, h.alerts⟩
  intro c hc
  apply h.timers
  simp only [TxStore.setLoadingStepIndex] at hc
  split at hc
  · simpa using hc
  · exact hc

theorem Shows.setLoading (h : Shows P u) (status : Bool) : Shows P (u.setLoading status) :=
  ⟨h.receipts, h.timers, h.alerts⟩

theorem Shows.setBlockConfirmations (h : Shows P u) (blocks : Int) : Shows P (u.setBlockConfirmations blocks) :=
  ⟨h.receipts, h.timers, h.alerts⟩

theorem Shows.push (h : Shows P u) {a : Alert} (ha : ∀ c, a = .success c → P c) : Shows P (u.push a) := by
  refine ⟨h.receipts, h.timers, ?_⟩
  intro c hc
  rcases List.mem_append.mp hc with hold | hnew
  · exact h.alerts c hold
  · exact ha c (List.mem_singleton.mp hnew).symm

theorem Shows.confirm (h : Shows P u) {c : Confirmation} (hc : P c) : Shows P (u.confirm c) := by
  refine ⟨h.receipts, ?_, (h.setLoadingStepIndex 3).alerts⟩
  intro c' hc'
  rcases List.mem_cons.mp hc' with heq | hold
  · exact Timer.pushSuccess.inj heq ▸ hc
  · exact (h.setLoadingStepIndex 3).timers c' hold

theorem Shows.getTxStatus (h : Shows P u) {withoutEvents : WithoutEvents} {t : SentTransfer} {onHome : Bool}
    {latestBlockNumber : Nat} {r : TxReceipt} {u' : TxStore} {next : Option PollFunction}
    (answer : TxStore.getTxStatus withoutEvents u t onHome latestBlockNumber r = (u', next)) : Shows P u' := by
  have hready := (h.setBlockConfirmations 8).setLoadingStepIndex 2
  obtain rfl := congrArg Prod.fst answer
  simp only [TxStore.getTxStatus]
  split_ifs with hsuccess height hhome hforeign hevents hpositive
  -- eight confirmations: the other side is next
  · exact hready
  · exact ⟨hready.receipts, hready.timers, hready.alerts⟩
  · exact hready
  · exact ⟨hready.receipts, hready.timers, hready.alerts⟩
  · exact h.setBlockConfirmations _
  · exact h
  · exact (h.setLoading false).push fun c hc => by simp at hc

theorem Shows.homeEvents {H : Type} (h : Shows P u) {events : List (HomeEvent H)}
    (hevents : ∀ hash ∈ events.filterMap affirmationCompleted, P (.affirmationCompleted hash)) :
    Shows P (u.homeEvents events) := by
  have hfold : ∀ (hashes : List Bytes32) (u : TxStore), Shows P u →
      (∀ hash ∈ hashes, P (.affirmationCompleted hash)) →
      Shows P (hashes.foldl (fun u hash =>
        let u := u.confirm (.affirmationCompleted hash)
        { u with homeWaiting := u.homeWaiting.erase hash }) u) := by
    intro hashes
    induction hashes with
    | nil => exact fun u hu _ => hu
    | cons hash hashes ih =>
        intro u hu hall
        have hfirst := hu.confirm (hall hash List.mem_cons_self)
        refine ih _ ⟨hfirst.receipts, hfirst.timers, hfirst.alerts⟩ ?_
        exact fun hash' hmem => hall hash' (List.mem_cons_of_mem _ hmem)
  exact hfold _ u h fun hash hmem => hevents hash (List.mem_filter.mp hmem).1

theorem Shows.foreignEvents (h : Shows P u) {events : List ForeignEvent}
    (hevents : ∀ hash ∈ events.filterMap TxStore.relayedMessage, P (.relayedMessage hash)) :
    Shows P (u.foreignEvents events) := by
  refine ⟨?_, h.timers, h.alerts⟩
  intro hash hhash
  rcases List.mem_append.mp hhash with hnew | hold
  · exact hevents hash (List.mem_filter.mp hnew).1
  · exact h.receipts hash hold

theorem Shows.foreignReceipt {before after : List Bytes32} {hash : Bytes32} (h : Shows P u)
    (hreceipts : u.receipts = before ++ hash :: after) (logs : Nat) :
    Shows P ({ u with receipts := before ++ after }.foreignReceipt hash logs) := by
  have hrest : Shows P { u with receipts := before ++ after } := by
    refine ⟨?_, h.timers, h.alerts⟩
    intro hash' hhash'
    apply h.receipts
    rw [hreceipts]
    rcases List.mem_append.mp hhash' with hbefore | hafter
    · exact List.mem_append_left _ hbefore
    · exact List.mem_append_right _ (List.mem_cons_of_mem _ hafter)
  unfold TxStore.foreignReceipt
  split
  · have hconfirmed := hrest.confirm (h.receipts hash (hreceipts ▸ List.mem_append_right _ List.mem_cons_self))
    exact ⟨hconfirmed.receipts, hconfirmed.timers, hconfirmed.alerts⟩
  · exact hrest

theorem Shows.expired {before after : List Timer} {timer : Timer} (h : Shows P u)
    (htimers : u.timers = before ++ timer :: after) :
    Shows P ({ u with timers := before ++ after }.expired timer) := by
  have hrest : Shows P { u with timers := before ++ after } := by
    refine ⟨h.receipts, ?_, h.alerts⟩
    intro c hc
    apply h.timers
    rw [htimers]
    rcases List.mem_append.mp hc with hbefore | hafter
    · exact List.mem_append_left _ hbefore
    · exact List.mem_append_right _ (List.mem_cons_of_mem _ hafter)
  cases timer with
  | setLoading => exact hrest.setLoading false
  | pushSuccess c =>
      apply hrest.push
      rintro c' heq
      obtain rfl := Alert.success.inj heq
      exact h.timers c (htimers ▸ List.mem_append_right _ List.mem_cons_self)

end TxStore

/-! ## What the bridges are done with -/

namespace Home

variable {H W : Type} {K : CollisionFree H} {s : Home H W}

/-- The deposit was executed, once, and with the signatures of enough distinct validators. -/
def ExecutedOnce (s : Home H W) (d : Deposit) : Prop :=
  (executedDeposits s.bridge.trail).count d = 1 ∧ Approved s d

theorem Threshold.executedOnce (h : Threshold K ∅ s) (hwords : WordsKept K s) {d : Deposit}
    (hd : isAlreadyProcessed (s.numAffirmationsSigned (depositHash K d)) = true) : ExecutedOnce s d := by
  have hmem : d ∈ executedDeposits s.bridge.trail := h.once.mem_iff.mpr hd
  exact ⟨List.count_eq_one_of_mem h.once.nodup hmem, h.approved hwords hmem⟩

end Home

namespace Foreign

variable {H F : Type} {K : CollisionFree H} {ecrecover : Ecrecover H} {s : Foreign F}

/-- A message with the hash was relayed, once, and with the signatures of enough distinct validators. -/
def RelayedOnce (K : CollisionFree H) (ecrecover : Ecrecover H) (s : Foreign F) (hash : Bytes32) : Prop :=
  (s.bridge.trail.map fun r => r.parsed.txHash).count hash = 1 ∧
    ∃ r ∈ s.bridge.trail, r.parsed.txHash = hash ∧ Backed K ecrecover s.bridge.self r

theorem Relayed.relayedOnce (h : Relayed K ecrecover ∅ s) {hash : Bytes32} (hhash : s.relayedMessages hash = true) :
    RelayedOnce K ecrecover s hash := by
  have hmem : hash ∈ s.bridge.trail.map fun r => r.parsed.txHash := h.once.mem_iff.mpr hhash
  obtain ⟨r, hr, heq⟩ := List.mem_map.mp hmem
  exact ⟨List.count_eq_one_of_mem h.once.nodup hmem, r, hr, heq, h.backed r hr⟩

end Foreign

/-! ## Runs -/

theorem soliditySha3_eq {H : Type} (K : CollisionFree H) (t : SentTransfer) :
    soliditySha3 K t.recipient t.sentValue t.hash = some (depositHash K (t.address, t.sentValue, t.hash)) := by
  obtain ⟨cs, hrecipient, hcs⟩ := t.spelled
  have hdecode : Hex.decode (strip0x t.recipient) = some (packAddress t.address) := by
    rw [hrecipient]
    exact hcs
  rw [soliditySha3, hdecode]
  rfl

/-- The poll reads the word of the deposit. -/
theorem HomeStore.processed_eq {H W : Type} (K : CollisionFree H) (s : Home H W) (t : SentTransfer) :
    HomeStore.processed K s t =
      isAlreadyProcessed (s.numAffirmationsSigned (depositHash K (t.address, t.sentValue, t.hash))) := by
  rw [HomeStore.processed, soliditySha3_eq]

namespace Tracking

variable {H W F : Type} {c : Setting H} {x x' : Tracking H W F}

/-- The bridge of the other side has executed or relayed what is taken for received. -/
def Processed (c : Setting H) (x : Tracking H W F) : Confirmation → Prop
  | .processed t => x.home.ExecutedOnce (t.address, t.sentValue, t.hash)
  | .affirmationCompleted hash => ∃ recipient value, x.home.ExecutedOnce (recipient, value, hash)
  | .relayed t => x.foreign.RelayedOnce c.K c.ecrecover t.hash
  | .relayedMessage hash => x.foreign.RelayedOnce c.K c.ecrecover hash

/-- The same in the flags of the bridges, which never go down. -/
def Flagged (c : Setting H) (x : Tracking H W F) : Confirmation → Prop
  | .processed t => isAlreadyProcessed
      (x.home.numAffirmationsSigned (depositHash c.K (t.address, t.sentValue, t.hash))) = true
  | .affirmationCompleted hash => ∃ recipient value, isAlreadyProcessed
      (x.home.numAffirmationsSigned (depositHash c.K (recipient, value, hash))) = true
  | .relayed t => x.foreign.relayedMessages t.hash = true
  | .relayedMessage hash => x.foreign.relayedMessages hash = true

/-- What holds in every run. -/
structure Sound (c : Setting H) (x : Tracking H W F) : Prop where
  threshold : Home.Threshold c.K ∅ x.home
  words : Home.WordsKept c.K x.home
  matched : Home.Matched x.home
  relayed : Foreign.Relayed c.K c.ecrecover ∅ x.foreign
  shows : x.ui.Shows (Flagged c x)

theorem Sound.processed (h : Sound c x) {k : Confirmation} (hk : Flagged c x k) : Processed c x k := by
  cases k with
  | processed t => exact h.threshold.executedOnce h.words hk
  | affirmationCompleted hash =>
      obtain ⟨recipient, value, hflag⟩ := hk
      exact ⟨recipient, value, h.threshold.executedOnce h.words hflag⟩
  | relayed t => exact h.relayed.relayedOnce hk
  | relayedMessage hash => exact h.relayed.relayedOnce hk

theorem sound_initial (hhome : x.home.Fresh) (hforeign : x.foreign.Fresh) (hui : x.ui = .initial) : Sound c x where
  threshold := Home.threshold_fresh hhome
  words := Home.wordsKept_fresh hhome
  matched := Home.matched_fresh hhome
  relayed := Foreign.relayed_fresh hforeign
  shows := hui ▸ TxStore.initial_shows _

/-- An `AffirmationCompleted` on the log is of a settled deposit. -/
theorem Sound.affirmationCompleted (h : Sound c x) {events : List (HomeEvent H)}
    (hlogged : events ⊆ x.home.bridge.log.map Prod.snd) {hash : Bytes32}
    (hhash : hash ∈ events.filterMap TxStore.affirmationCompleted) : Flagged c x (.affirmationCompleted hash) := by
  obtain ⟨event, hevent, heq⟩ := List.mem_filterMap.mp hhash
  obtain ⟨entry, hentry, rfl⟩ := List.mem_map.mp (hlogged hevent)
  obtain ⟨recipient, value, hcompleted⟩ :
      ∃ recipient value, Home.completedOf entry.2 = some (recipient, value, hash) := by
    cases hkind : entry.2 <;> simp_all [TxStore.affirmationCompleted, Home.completedOf]
  have hmem : (recipient, value, hash) ∈ x.home.completions := List.mem_filterMap.mpr ⟨entry, hentry, hcompleted⟩
  rw [h.matched] at hmem
  exact ⟨recipient, value, h.threshold.once.mem_iff.mp hmem⟩

/-- A `RelayedMessage` on the log is of a relayed message. -/
theorem Sound.relayedMessage (h : Sound c x) {events : List ForeignEvent} (hlogged : events ⊆ x.foreign.bridge.log)
    {hash : Bytes32} (hhash : hash ∈ events.filterMap TxStore.relayedMessage) :
    x.foreign.relayedMessages hash = true := by
  obtain ⟨event, hevent, heq⟩ := List.mem_filterMap.mp hhash
  obtain ⟨recipient, value, hrelayed⟩ :
      ∃ recipient value, Foreign.relayedEvent event = some (recipient, value, hash) := by
    cases event <;> simp_all [TxStore.relayedMessage, Foreign.relayedEvent]
  have hmem : (recipient, value, hash) ∈ Foreign.relayedEvents x.foreign.bridge.log :=
    List.mem_filterMap.mpr ⟨event, hlogged hevent, hrelayed⟩
  rw [h.relayed.events] at hmem
  obtain ⟨r, hr, heq'⟩ := List.mem_map.mp hmem
  exact h.relayed.once.mem_iff.mp (List.mem_map.mpr ⟨r, hr, congrArg (fun d => d.2.2) heq'⟩)

theorem flagged_foreign {foreign : Foreign F} {k : Confirmation}
    (h : Foreign.StepWhen c.K c.ecrecover c.foreignVariant (fun _ _ => True) x.foreign foreign)
    (hk : Flagged c x k) : Flagged c { x with foreign := foreign } k := by
  have hstill := Foreign.step_stillRelayed h
  cases k with
  | processed _ | affirmationCompleted _ => exact hk
  | relayed t => exact hstill t.hash hk
  | relayedMessage hash => exact hstill hash hk

section Steps

variable [DecidableEq H]

/-- Neither chain takes back what it has executed or relayed. -/
theorem flagged_home {home : Home H W} {k : Confirmation}
    (h : Home.StepWhen c.K c.ecrecover c.homeVariant (fun _ _ => True) x.home home) (hk : Flagged c x k) :
    Flagged c { x with home := home } k := by
  have hfrozen := (Home.step_threshold (K := c.K) h).2
  cases k with
  | processed t => exact (congrArg isAlreadyProcessed (hfrozen _ hk).1).trans hk
  | affirmationCompleted hash =>
      obtain ⟨recipient, value, hflag⟩ := hk
      exact ⟨recipient, value, (congrArg isAlreadyProcessed (hfrozen _ hflag).1).trans hflag⟩
  | relayed _ | relayedMessage _ => exact hk

theorem step_sound (h : Step c x x') (hx : Sound c x) : Sound c x' := by
  obtain ⟨hthreshold, hwords, hmatched, hrelayed, hshows⟩ := hx
  -- a callback leaves the chains alone
  have hui {u : TxStore} (hu : u.Shows (Flagged c x)) : Sound c { x with ui := u } :=
    ⟨hthreshold, hwords, hmatched, hrelayed, hu⟩
  cases h with
  | home hstep =>
      exact ⟨(Home.step_threshold hstep).1 hthreshold, Home.step_wordsKept hstep hthreshold hwords,
        Home.step_keepsMatched hstep hmatched, hrelayed, hshows.mono fun _ => flagged_home hstep⟩
  | foreign hstep =>
      exact ⟨hthreshold, hwords, hmatched, Foreign.step_relayed hrelayed hstep, hshows.mono fun _ => flagged_foreign hstep⟩
  | transactionHash t =>
      have hfirst := hshows.setLoadingStepIndex 1
      exact hui ⟨hfirst.receipts, hfirst.timers, hfirst.alerts⟩
  | rejected => exact hui ((hshows.setLoading false).push fun k hk => by simp at hk)
  | mined _ => exact hui ⟨hshows.receipts, hshows.timers, hshows.alerts⟩
  | status onHome latestBlockNumber r _ answer =>
      have hanswer := hshows.getTxStatus answer
      exact hui ⟨hanswer.receipts, hanswer.timers, hanswer.alerts⟩
  | @homeProcessed before after t _ processed =>
      have hrest : TxStore.Shows (Flagged c x) { x.ui with polling := before ++ after } :=
        ⟨hshows.receipts, hshows.timers, hshows.alerts⟩
      exact hui (hrest.confirm ((HomeStore.processed_eq c.K x.home t).symm.trans processed))
  | @foreignProcessed before after t _ processed =>
      have hrest : TxStore.Shows (Flagged c x) { x.ui with polling := before ++ after } :=
        ⟨hshows.receipts, hshows.timers, hshows.alerts⟩
      exact hui (hrest.confirm processed)
  | homeEvents logged =>
      exact hui (hshows.homeEvents fun _ =>
        Sound.affirmationCompleted ⟨hthreshold, hwords, hmatched, hrelayed, hshows⟩ logged)
  | foreignEvents logged =>
      exact hui (hshows.foreignEvents fun _ =>
        Sound.relayedMessage ⟨hthreshold, hwords, hmatched, hrelayed, hshows⟩ logged)
  | foreignReceipt logs receipts => exact hui (hshows.foreignReceipt receipts logs)
  | timer timers => exact hui (hshows.expired timers)

/-- **What "received" means.** In every run of the chains and the user interface, whatever the wallet is connected to
    and in whatever order the callbacks come: a transfer is shown as received, or will be in two seconds, only if the
    bridge of the other side has executed or relayed it, once and with the signatures of enough validators. -/
theorem success_of_run {x₀ : Tracking H W F} (hhome : x₀.home.Fresh) (hforeign : x₀.foreign.Fresh)
    (hui : x₀.ui = .initial) (hrun : Relation.ReflTransGen (Step c) x₀ x) :
    (∀ k, .success k ∈ x.ui.alertStore.alerts → Processed c x k) ∧ ∀ k, .pushSuccess k ∈ x.ui.timers → Processed c x k := by
  have hsound : Sound c x := Calls.steps_invariant (P := Sound c) (fun _ _ hx hstep => step_sound hstep hx) hrun
    (sound_initial hhome hforeign hui)
  exact ⟨fun k hk => hsound.processed (hsound.shows.alerts k hk), fun k hk => hsound.processed (hsound.shows.timers k hk)⟩

end Steps

/-- 100 for account 33, sent to the foreign bridge in transaction 77. -/
def sampleSent : SentTransfer where
  hash := 77
  sentValue := 100
  recipient := '0' :: 'x' :: Hex.encode (packAddress 33)
  address := 33
  spelled := ⟨_, rfl, Hex.decode_encode _⟩

/-- The user interface polls, the validators sign, and the success is shown. -/
theorem success_of_run_deposit : ∃ x₀ x : Tracking (List Byte) Unit Unit,
    Relation.ReflTransGen
      (Step ⟨serialHash, Home.noSigner, .ercToErcWithFee, .ercToErcV2, ⟨true, true⟩⟩) x₀ x ∧
    .success (.processed sampleSent) ∈ x.ui.alertStore.alerts ∧ x.home.ExecutedOnce (33, 100, 77) := by
  have heval : (do
      let v ← BridgeValidators.blank.initializeWith 2 [1, 2] 9
      let s₁ ← Home.exec serialHash Home.noSigner .ercToErcWithFee Home.obliging
        { Home.sampleHome () with validators := v } (.executeAffirmation 1 33 100 77)
      let s₂ ← Home.exec serialHash Home.noSigner .ercToErcWithFee Home.obliging s₁ (.executeAffirmation 2 33 100 77)
      pure (isAlreadyProcessed (s₂.numAffirmationsSigned (depositHash serialHash (33, 100, 77))))) = some true := by
    decide +kernel
  simp only [Option.bind_eq_bind, Option.bind_eq_some_iff, Option.pure_def, Option.some.injEq] at heval
  obtain ⟨v, hv, s₁, h₁, s₂, h₂, hprocessed⟩ := heval
  let c : Setting (List Byte) := ⟨serialHash, Home.noSigner, .ercToErcWithFee, .ercToErcV2, ⟨true, true⟩⟩
  let s : Home (List Byte) Unit := Home.sampleHome ()
  let f : Foreign Unit := Foreign.sampleForeign v ()
  let u₁ : TxStore := TxStore.initial.transactionHash sampleSent
  let u₂ : TxStore := { u₁ with polling := [(sampleSent, .getTxStatus)] }
  -- mined in block 10, and the foreign chain is at block 20
  let u₃ : TxStore :=
    { (u₂.setBlockConfirmations 8).setLoadingStepIndex 2 with polling := [(sampleSent, .homeWaitUntilProcessed)] }
  let u₄ : TxStore := { u₃ with polling := [] }.confirm (.processed sampleSent)
  have hsent : Step c ⟨s, f, .initial⟩ ⟨s, f, u₁⟩ := .transactionHash sampleSent
  have hmined : Step c ⟨s, f, u₁⟩ ⟨s, f, u₂⟩ := by
    have hpolling : u₁.polling = [] ++ (sampleSent, .getTxReceipt) :: [] := rfl
    exact .mined (x := ⟨s, f, u₁⟩) hpolling
  have hstatus : Step c ⟨s, f, u₂⟩ ⟨s, f, u₃⟩ := by
    have hpolling : u₂.polling = [] ++ (sampleSent, .getTxStatus) :: [] := rfl
    exact .status (x := ⟨s, f, u₂⟩) false 20 ⟨10, true, 1⟩ hpolling rfl
  have hvalidators : Step c ⟨s, f, u₃⟩ ⟨{ s with validators := v }, f, u₃⟩ :=
    .home (.validators ⟨.initializeWith 2 [1, 2] 9, hv⟩)
  have hfirst : Step c ⟨{ s with validators := v }, f, u₃⟩ ⟨s₁, f, u₃⟩ :=
    .home (Home.step_of_exec trivial Home.obliging_within h₁)
  have hsecond : Step c ⟨s₁, f, u₃⟩ ⟨s₂, f, u₃⟩ := .home (Home.step_of_exec trivial Home.obliging_within h₂)
  have hreceived : Step c ⟨s₂, f, u₃⟩ ⟨s₂, f, u₄⟩ := by
    have hpolling : u₃.polling = [] ++ (sampleSent, .homeWaitUntilProcessed) :: [] := rfl
    have hpoll : HomeStore.processed serialHash s₂ sampleSent = true :=
      (HomeStore.processed_eq _ _ _).trans hprocessed
    exact .homeProcessed (x := ⟨s₂, f, u₃⟩) hpolling hpoll
  have hshown : Step c ⟨s₂, f, u₄⟩
      ⟨s₂, f, { u₄ with timers := [.setLoading] }.push (.success (.processed sampleSent))⟩ := by
    have htimers : u₄.timers = [] ++ .pushSuccess (.processed sampleSent) :: [.setLoading] := rfl
    exact .timer (x := ⟨s₂, f, u₄⟩) htimers
  have hrun := (((((((Relation.ReflTransGen.single hsent).tail hmined).tail hstatus).tail hvalidators).tail
    hfirst).tail hsecond).tail hreceived).tail hshown
  have hall := success_of_run (Home.deploy_fresh ..) (Foreign.deploy_fresh hv ..) rfl hrun
  have hsuccess : .success (.processed sampleSent) ∈ [Alert.success (.processed sampleSent)] := List.mem_cons_self
  exact ⟨_, _, hrun, hsuccess, hall.1 _ hsuccess⟩

end Tracking

/-! ## The poll for a deposit, and the validators -/

section Credit

open RecipientOverride

/-- The validators read the recipient that the user interface wrote. -/
theorem processTransfer_written {web3 : Web3Abi} {bridge r : Address} {input : Bytes32 → Bytes} {t : Transfer}
    (h : Written web3 .transfer bridge r (input t.transactionHash)) (hr : r ≠ 0) :
    processTransfer input t = (r, t.value, t.transactionHash) := by
  have hrecipient : ObservableMethod.transfer.recipient (input t.transactionHash) t.source = r :=
    h.recipient_eq hr t.source
  rw [processTransfer, hrecipient]

variable {H W : Type} [DecidableEq H] {K : CollisionFree H} {ecrecover : Ecrecover H} {V : HomeVariant}

/-- **The poll for a deposit.** The user interface sends a deposit for an address; the validators process it among
    others. Whatever the order, the poll ends if the deposit is credited to that address, and only then; and it ends
    when all validators are done with the transfer. -/
theorem processed_iff_credited {s₀ : Home H W} (hfresh : s₀.Fresh) {n : UInt256} {vs : List Address} {owner : Address}
    {v : BridgeValidators} (hinit : BridgeValidators.blank.initializeWith n vs owner = some v)
    {input : Bytes32 → Bytes} {ts : List Transfer} {c : Crediting H W}
    (hrun : Relation.ReflTransGen (CreditStep K ecrecover V input ts) ⟨{ s₀ with validators := v }, [], []⟩ c)
    {t : Transfer} {u : SentTransfer} (hhash : u.hash = t.transactionHash) (hvalue : u.sentValue = t.value)
    {web3 : Web3Abi} {bridge : Address} {write : Address → UInt256 → JsString → JsString}
    (hwrite : write ∈ writers web3 .transfer)
    (hinput : MessageJs.Denotes (write bridge u.sentValue u.recipient) (input t.transactionHash))
    (hu : u.address ≠ 0) :
    (HomeStore.processed K c.home u = true ↔
      (u.address, u.sentValue, u.hash) ∈ Home.executedDeposits c.home.bridge.trail) ∧
    ((∀ a, c.home.validators.isValidator a = true → (a, t) ∈ c.processed) →
      HomeStore.processed K c.home u = true) := by
  have hc : Home.Credited K input ts c := Calls.steps_invariant (P := Home.Credited K input ts)
    (fun _ _ hc hstep => Home.credited_step hc hstep) hrun (Home.credited_fresh hfresh hinit)
  have hwritten : Written web3 .transfer bridge u.address (input t.transactionHash) :=
    ⟨write, hwrite, u.sentValue, u.recipient, u.spelled, hinput⟩
  have hdeposit : processTransfer input t = (u.address, u.sentValue, u.hash) := by
    rw [processTransfer_written hwritten hu, hhash, hvalue]
  rw [HomeStore.processed_eq]
  refine ⟨hc.polling.threshold.once.mem_iff.symm, ?_⟩
  intro hall
  by_contra hopen
  -- otherwise all validators have signed, and the last signature settles
  apply hopen
  apply hc.unstuck.affirmation
  intro a ha
  rcases hc.done a t (hall a ha) with hsigned | hprocessed
  · exact hdeposit ▸ hsigned
  · exact absurd (hdeposit ▸ hprocessed) hopen

open Home (obliging noSigner obliging_within sampleHome) in
/-- Account 34 deposits 100 for account 33; the only validator credits it. -/
theorem processed_iff_credited_override : ∃ c : Crediting (List Byte) Unit,
    HomeStore.processed serialHash c.home Tracking.sampleSent = true ∧
      (33, 100, 77) ∈ Home.executedDeposits c.home.bridge.trail := by
  have heval : (do
      let v ← BridgeValidators.blank.initializeWith 1 [1] 9
      let s := { sampleHome () with validators := v }
      let limit ← s.bridge.basic.withinExecutionLimit s.getCurrentDay 100
      let s₁ ← Home.exec serialHash noSigner .ercToErcWithFee obliging s (affirmation 1 (33, 100, 77))
      pure (limit, s₁.bridge.trail.length)) = some (true, 2) := by
    decide +kernel
  simp only [Option.bind_eq_bind, Option.bind_eq_some_iff, Option.pure_def, Option.some.injEq,
    Prod.mk.injEq] at heval
  obtain ⟨v, hv, limit, hlimit, s₁, h₁, rfl, _⟩ := heval
  obtain ⟨input, hinputs⟩ : ∃ input : Bytes32 → Bytes, ∀ h, input h = encoding .transfer 7 100 33 := ⟨_, fun _ => rfl⟩
  obtain ⟨t, hhash, hvalue⟩ : ∃ t : Transfer, (77 : Bytes32) = t.transactionHash ∧ (100 : UInt256) = t.value :=
    ⟨⟨34, 7, 100, 77⟩, rfl, rfl⟩
  have hwrite : erc20transfer plainAbi ∈ writers plainAbi .transfer := by simp [writers]
  have hinput : MessageJs.Denotes (erc20transfer plainAbi 7 100 Tracking.sampleSent.recipient)
      (input t.transactionHash) := by
    rw [hinputs]
    exact writer_denotes hwrite Tracking.sampleSent.spelled
  have hwritten : Written plainAbi .transfer 7 33 (input t.transactionHash) := written_iff.mpr ⟨100, hinputs _⟩
  have hdeposit : processTransfer input t = (33, 100, 77) := by
    rw [processTransfer_written hwritten (by decide), ← hhash, ← hvalue]
  have hexec : Home.exec serialHash noSigner .ercToErcWithFee obliging { sampleHome () with validators := v }
      (affirmation 1 (processTransfer input t)) = some s₁ := by
    rw [hdeposit]
    exact h₁
  have hwithin :
      (sampleHome ()).bridge.basic.withinExecutionLimit (sampleHome ()).getCurrentDay t.value = some true := by
    rw [← hvalue]
    exact hlimit
  have hrun := Home.creditStep_sent (c := ⟨{ sampleHome () with validators := v }, [], []⟩) (t := t) (a := 1)
    (List.mem_singleton.mpr rfl) obliging_within hwithin hexec
  obtain ⟨hiff, hdone⟩ := processed_iff_credited (u := Tracking.sampleSent) (Home.deploy_fresh ..) hv hrun (t := t)
    hhash hvalue hwrite hinput (by decide)
  have hprocessed : HomeStore.processed serialHash s₁ Tracking.sampleSent = true := by
    apply hdone
    intro a ha
    rw [Home.only_validator hv (Home.exec_validators obliging_within h₁) ha]
    exact List.mem_cons_self
  exact ⟨_, hprocessed, hiff.mp hprocessed⟩

end Credit

end ThunderBridge
