import Mathlib.Data.List.Nodup
import Mathlib.Data.Set.Basic
import Mathlib.Logic.Relation

/-!
# `Lib.Broker` — what the clients of a message broker declare

Clients of a broker declare the exchanges, queues and bindings they use before they use them, each on its own and any
number of times. The broker is a parameter, with the behaviour that is documented of it (`Broker.Lawful`): declaring
what is there already does nothing, but a queue that is there with other options is refused; an exchange gives a
message once to each queue bound to it; and a message that stays in a queue for longer than its time to live goes to
the queue's dead letter exchange.

`Agree` says that no two declarations want one queue with different options, and `OrderedFrom` that a client declares
what it binds before it binds it. Then no declaration is refused, whichever clients connect, whenever, and however
their declarations interleave, and a client that is connected finds everything it declared (`Clients.step_sound`).
`Topology` is a broker to evaluate.
-/

namespace ThunderBridge

/-- The options of a queue. -/
structure QueueOptions where
  deadLetterExchange : Option String
  messageTtl : Option Nat
deriving DecidableEq, Repr

/-- What a client declares; a binding takes every message of the exchange. -/
inductive Declaration where
  | exchange (name : String)
  | queue (name : String) (options : QueueOptions)
  | bind (queue exchange : String)
deriving DecidableEq, Repr

/-- A broker whose declarations are kept in a `β`. -/
structure Broker (β : Type) where
  /-- Nothing was declared yet. -/
  empty : β
  /-- It is there. -/
  Has : β → Declaration → Prop
  /-- The broker's answer to a declaration; `none` closes the channel. -/
  declare : β → Declaration → Option β
  /-- The queues that get what is sent to a queue. -/
  routes : β → String → List String
  /-- How long a message stays in a queue, and the queues that get it then; `none` if it stays. -/
  expired : β → String → Option (Nat × List String)

namespace Broker

variable {β : Type} {K : Broker β} {t t' : β} {d d' : Declaration} {declarations : Set Declaration}

/-- What a declaration needs: a queue and an exchange to bind. -/
def Ready (K : Broker β) (t : β) : Declaration → Prop
  | .bind queue exchange => (∃ options, K.Has t (.queue queue options)) ∧ K.Has t (.exchange exchange)
  | _ => True

/-- What the protocol promises. -/
structure Lawful (K : Broker β) : Prop where
  empty : ∀ d, ¬ K.Has K.empty d
  /-- A declaration that is accepted adds itself. -/
  declare : ∀ t d t', K.declare t d = some t' → ∀ d', K.Has t' d' ↔ d' = d ∨ K.Has t d'
  /-- A declaration is refused only if it is not ready, or wants a queue that is there with other options. -/
  accepts : ∀ t d, K.Ready t d →
    (∀ name options options', d = .queue name options → K.Has t (.queue name options') → options = options') →
    (K.declare t d).isSome
  /-- What is sent to a queue that is there gets there. -/
  routes : ∀ t name options, K.Has t (.queue name options) → K.routes t name = [name]
  /-- A message that outstays its time to live goes once to each queue bound to the dead letter exchange. -/
  expired : ∀ t name exchange ttl, K.Has t (.queue name ⟨some exchange, some ttl⟩) →
    ∃ targets : List String, K.expired t name = some (ttl, targets) ∧ targets.Nodup ∧
      ∀ queue, queue ∈ targets ↔ K.Has t (.bind queue exchange)
  /-- Without a time to live it stays. -/
  stays : ∀ t name deadLetterExchange, K.Has t (.queue name ⟨deadLetterExchange, none⟩) → K.expired t name = none

/-- Everything that is there was declared. -/
def From (K : Broker β) (t : β) (declarations : Set Declaration) : Prop := ∀ d, K.Has t d → d ∈ declarations

/-- No two declarations want a queue with different options. -/
def Agree (declarations : Set Declaration) : Prop :=
  ∀ name options options', .queue name options ∈ declarations → .queue name options' ∈ declarations →
    options = options'

section Lawful

variable (hK : K.Lawful)
include hK

theorem from_empty (declarations : Set Declaration) : K.From K.empty declarations :=
  fun d h => absurd h (hK.empty d)

/-- What was declared is there. -/
theorem has_declare (h : K.declare t d = some t') : K.Has t' d := (hK.declare _ _ _ h d).mpr (Or.inl rfl)

/-- What is there stays. -/
theorem has_of_declare (hd : K.Has t d) (h : K.declare t d' = some t') : K.Has t' d :=
  (hK.declare _ _ _ h d).mpr (Or.inr hd)

theorem from_declare (ht : K.From t declarations) (hd : d ∈ declarations) (h : K.declare t d = some t') :
    K.From t' declarations := by
  intro d' hd'
  rcases (hK.declare _ _ _ h d').mp hd' with rfl | hold
  · exact hd
  · exact ht d' hold

/-- **Declarations that agree are not refused.** -/
theorem declare_isSome (ht : K.From t declarations) (hagree : Agree declarations) (hd : d ∈ declarations)
    (hready : K.Ready t d) : ∃ t', K.declare t d = some t' := by
  refine Option.isSome_iff_exists.mp (hK.accepts t d hready ?_)
  rintro name options options' rfl hold
  exact hagree name options options' hd (ht _ hold)

/-- A queue whose dead letter exchange has one binding among the declarations gives each message to that queue,
    once. -/
theorem expired_eq (ht : K.From t declarations) {name dest exchange : String} {ttl : Nat}
    (hqueue : K.Has t (.queue name ⟨some exchange, some ttl⟩)) (hbind : K.Has t (.bind dest exchange))
    (honly : ∀ queue, .bind queue exchange ∈ declarations → queue = dest) :
    K.expired t name = some (ttl, [dest]) := by
  obtain ⟨targets, hexpired, hnodup, hmem⟩ := hK.expired t name exchange ttl hqueue
  rw [hexpired]
  have hall : ∀ queue ∈ targets, queue = dest := fun queue h => honly queue (ht _ ((hmem queue).mp h))
  have hdest : dest ∈ targets := (hmem dest).mpr hbind
  have hreplicate := List.eq_replicate_of_mem hall
  rw [hreplicate] at hnodup hdest ⊢
  have hlen := List.nodup_replicate.mp hnodup
  have hpos := List.length_pos_of_mem hdest
  rw [List.length_replicate] at hpos
  rw [show targets.length = 1 by omega]
  rfl

end Lawful

end Broker

/-! ## Clients -/

/-- Whatever is bound was declared before. -/
def OrderedFrom (before : List Declaration) : List Declaration → Prop
  | [] => True
  | d :: rest =>
      (∀ queue exchange, d = .bind queue exchange →
        (∃ options, .queue queue options ∈ before) ∧ .exchange exchange ∈ before) ∧
      OrderedFrom (d :: before) rest

theorem OrderedFrom.mono {before before' rest : List Declaration} (h : OrderedFrom before rest)
    (hsub : before ⊆ before') : OrderedFrom before' rest := by
  induction rest generalizing before before' with
  | nil => trivial
  | cons d rest ih =>
      refine ⟨?_, ih h.2 (List.cons_subset_cons d hsub)⟩
      intro queue exchange hd
      obtain ⟨⟨options, hqueue⟩, hexchange⟩ := h.1 queue exchange hd
      exact ⟨⟨options, hsub hqueue⟩, hsub hexchange⟩

theorem OrderedFrom.append {before xs ys : List Declaration} (hxs : OrderedFrom before xs) (hys : OrderedFrom [] ys) :
    OrderedFrom before (xs ++ ys) := by
  induction xs generalizing before with
  | nil => exact hys.mono (List.nil_subset _)
  | cons d xs ih => exact ⟨hxs.1, ih hxs.2⟩

/-- The clients of a broker: those that are connecting, with what they still have to declare, and those that are
    connected. -/
structure Clients (β S : Type) where
  topology : β
  starting : List (S × List Declaration)
  running : List S
  refused : List Declaration

namespace Clients

variable {β S : Type} {K : Broker β} {setup : S → List Declaration} {s s' : Clients β S}

def initial (K : Broker β) : Clients β S := ⟨K.empty, [], [], []⟩

/-- What clients do: connect, declare, be refused, and stop, at any time. -/
inductive Step (K : Broker β) (setup : S → List Declaration) (s : Clients β S) : Clients β S → Prop where
  | connect (client : S) : Step K setup s { s with starting := (client, setup client) :: s.starting }
  | declare {before after client d rest topology} (starting : s.starting = before ++ (client, d :: rest) :: after)
      (declared : K.declare s.topology d = some topology) :
      Step K setup s { s with topology := topology, starting := before ++ (client, rest) :: after }
  | refused {before after client d rest} (starting : s.starting = before ++ (client, d :: rest) :: after)
      (refused : K.declare s.topology d = none) :
      Step K setup s { s with starting := before ++ after, refused := d :: s.refused }
  | connected {before after client} (starting : s.starting = before ++ (client, []) :: after) :
      Step K setup s { s with starting := before ++ after, running := client :: s.running }
  | giveUp {before after client rest} (starting : s.starting = before ++ (client, rest) :: after) :
      Step K setup s { s with starting := before ++ after }
  | stop {before after client} (running : s.running = before ++ client :: after) :
      Step K setup s { s with running := before ++ after }

/-- What is there stays, whatever the clients do. -/
theorem Step.has (hK : K.Lawful) (h : Step K setup s s') {d : Declaration} (hd : K.Has s.topology d) :
    K.Has s'.topology d := by
  cases h with
  | declare _ hdeclare => exact Broker.has_of_declare hK hd hdeclare
  | connect _ | refused _ _ | connected _ | giveUp _ | stop _ => exact hd

/-- All that clients declare. -/
def Declared (setup : S → List Declaration) : Set Declaration := { d | ∃ client, d ∈ setup client }

/-- A client that is connecting finds what it has declared so far, and will not bind anything else. -/
def UnderWay (K : Broker β) (setup : S → List Declaration) (t : β) (x : S × List Declaration) : Prop :=
  ∃ before, (∀ d ∈ before, K.Has t d) ∧ OrderedFrom before x.2 ∧ ∀ d, d ∈ setup x.1 ↔ d ∈ before ∨ d ∈ x.2

/-- What holds in every run. -/
structure Sound (K : Broker β) (setup : S → List Declaration) (s : Clients β S) : Prop where
  declared : K.From s.topology (Declared setup)
  starting : ∀ x ∈ s.starting, UnderWay K setup s.topology x
  running : ∀ client ∈ s.running, ∀ d ∈ setup client, K.Has s.topology d
  refused : s.refused = []

theorem sound_initial (hK : K.Lawful) : Sound K setup (initial K) where
  declared := Broker.from_empty hK _
  starting _ hx := absurd hx List.not_mem_nil
  running _ hclient := absurd hclient List.not_mem_nil
  refused := rfl

theorem UnderWay.declare (hK : K.Lawful) {t t' : β} {x : S × List Declaration} {d : Declaration}
    (hx : UnderWay K setup t x) (h : K.declare t d = some t') : UnderWay K setup t' x := by
  obtain ⟨before, hhas, hordered, hsetup⟩ := hx
  exact ⟨before, fun d' hd' => Broker.has_of_declare hK (hhas d' hd') h, hordered, hsetup⟩

theorem step_sound (hK : K.Lawful) (hagree : Broker.Agree (Declared setup))
    (hordered : ∀ client, OrderedFrom [] (setup client)) (h : Step K setup s s') (hs : Sound K setup s) :
    Sound K setup s' := by
  obtain ⟨hdeclared, hstarting, hrunning, hrefused⟩ := hs
  -- fewer clients that are connecting, or fewer that are connected
  have hrest {before after : List (S × List Declaration)} {x : S × List Declaration}
      (hsplit : s.starting = before ++ x :: after) : ∀ y ∈ before ++ after, y ∈ s.starting := by
    intro y hy
    rw [hsplit]
    rcases List.mem_append.mp hy with hbefore | hafter
    · exact List.mem_append_left _ hbefore
    · exact List.mem_append_right _ (List.mem_cons_of_mem _ hafter)
  have hnext {before after : List (S × List Declaration)} {client : S} {d : Declaration} {rest : List Declaration}
      (hsplit : s.starting = before ++ (client, d :: rest) :: after) :
      UnderWay K setup s.topology (client, d :: rest) :=
    hstarting _ (hsplit ▸ List.mem_append_right _ List.mem_cons_self)
  cases h with
  | connect client =>
      refine ⟨hdeclared, ?_, hrunning, hrefused⟩
      intro x hx
      rcases List.mem_cons.mp hx with rfl | hold
      · exact ⟨[], fun d hd => absurd hd List.not_mem_nil, hordered client, fun d => by simp⟩
      · exact hstarting x hold
  | @declare before after client d rest topology hsplit hdeclare =>
      obtain ⟨done, hhas, ⟨_, hlater⟩, hsetup⟩ := hnext hsplit
      have hmine : d ∈ setup client := (hsetup d).mpr (Or.inr List.mem_cons_self)
      refine ⟨Broker.from_declare hK hdeclared ⟨client, hmine⟩ hdeclare, ?_, ?_, hrefused⟩
      · intro x hx
        rcases List.mem_append.mp hx with hbefore | hx
        · exact (hstarting x (hrest hsplit x (List.mem_append_left _ hbefore))).declare hK hdeclare
        · rcases List.mem_cons.mp hx with rfl | hafter
          · refine ⟨d :: done, ?_, hlater, ?_⟩
            · intro d' hd'
              rcases List.mem_cons.mp hd' with rfl | hold
              · exact Broker.has_declare hK hdeclare
              · exact Broker.has_of_declare hK (hhas d' hold) hdeclare
            · intro d'
              rw [hsetup d', List.mem_cons, List.mem_cons]
              tauto
          · exact (hstarting x (hrest hsplit x (List.mem_append_right _ hafter))).declare hK hdeclare
      · intro client' hclient' d' hd'
        exact Broker.has_of_declare hK (hrunning client' hclient' d' hd') hdeclare
  | @refused before after client d rest hsplit hdeclare =>
      obtain ⟨done, hhas, ⟨hready, _⟩, hsetup⟩ := hnext hsplit
      have hmine : d ∈ setup client := (hsetup d).mpr (Or.inr List.mem_cons_self)
      have hready' : K.Ready s.topology d := by
        cases d with
        | exchange _ | queue _ _ => trivial
        | bind queue exchange =>
            obtain ⟨⟨options, hqueue⟩, hexchange⟩ := hready queue exchange rfl
            exact ⟨⟨options, hhas _ hqueue⟩, hhas _ hexchange⟩
      obtain ⟨t', ht'⟩ := Broker.declare_isSome hK hdeclared hagree ⟨client, hmine⟩ hready'
      exact absurd (hdeclare.symm.trans ht') (by simp)
  | @connected before after client hsplit =>
      refine ⟨hdeclared, fun x hx => hstarting x (hrest hsplit x hx), ?_, hrefused⟩
      intro client' hclient'
      rcases List.mem_cons.mp hclient' with rfl | hold
      · obtain ⟨done, hhas, _, hsetup⟩ :=
          hstarting (client', []) (hsplit ▸ List.mem_append_right _ List.mem_cons_self)
        intro d hd
        exact hhas d (((hsetup d).mp hd).resolve_right List.not_mem_nil)
      · exact hrunning client' hold
  | giveUp hsplit => exact ⟨hdeclared, fun x hx => hstarting x (hrest hsplit x hx), hrunning, hrefused⟩
  | @stop before after client hsplit =>
      refine ⟨hdeclared, hstarting, ?_, hrefused⟩
      intro client' hclient'
      apply hrunning
      rw [hsplit]
      rcases List.mem_append.mp hclient' with hbefore | hafter
      · exact List.mem_append_left _ hbefore
      · exact List.mem_append_right _ (List.mem_cons_of_mem _ hafter)

/-- **A client can connect**, whatever the others are doing: what it declares is not refused. -/
theorem exists_connected (hK : K.Lawful) (hagree : Broker.Agree (Declared setup))
    (hordered : ∀ client, OrderedFrom [] (setup client)) (hs : Sound K setup s) (client : S) :
    ∃ s', Relation.ReflTransGen (Step K setup) s s' ∧ s'.running = client :: s.running := by
  have hdeclare : ∀ rest (s : Clients β S), Sound K setup s → (∃ others, s.starting = (client, rest) :: others) →
      ∃ s', Relation.ReflTransGen (Step K setup) s s' ∧ s'.running = client :: s.running := by
    intro rest
    induction rest with
    | nil =>
        rintro s _ ⟨others, hstarting⟩
        have hfirst : s.starting = [] ++ (client, []) :: others := hstarting
        exact ⟨_, .single (.connected hfirst), rfl⟩
    | cons d rest ih =>
        rintro s hs ⟨others, hstarting⟩
        have hfirst : s.starting = [] ++ (client, d :: rest) :: others := hstarting
        cases hanswer : K.declare s.topology d with
        | none =>
            have hrefused := (step_sound hK hagree hordered (.refused hfirst hanswer) hs).refused
            exact absurd hrefused (List.cons_ne_nil _ _)
        | some topology =>
            have hstep : Step K setup s _ := .declare hfirst hanswer
            obtain ⟨s', hrun, hrunning⟩ := ih _ (step_sound hK hagree hordered hstep hs) ⟨others, rfl⟩
            exact ⟨s', .head hstep hrun, hrunning⟩
  have hconnect : Step K setup s _ := .connect client
  obtain ⟨s', hrun, hrunning⟩ := hdeclare _ _ (step_sound hK hagree hordered hconnect hs) ⟨s.starting, rfl⟩
  exact ⟨s', .head hconnect hrun, hrunning⟩

end Clients

/-! ## A broker to evaluate -/

/-- What was declared. -/
structure Topology where
  exchanges : List String
  queues : String → Option QueueOptions
  /-- Queue and exchange. -/
  bindings : List (String × String)
  nodup : bindings.Nodup

namespace Topology

def Has (t : Topology) : Declaration → Prop
  | .exchange name => name ∈ t.exchanges
  | .queue name options => t.queues name = some options
  | .bind queue exchange => (queue, exchange) ∈ t.bindings

def declare (t : Topology) : Declaration → Option Topology
  | .exchange name => some { t with exchanges := t.exchanges.insert name }
  | .queue name options =>
      match t.queues name with
      | none => some { t with queues := fun x => if x = name then some options else t.queues x }
      | some options' => if options = options' then some t else none
  | .bind queue exchange =>
      if (t.queues queue).isSome ∧ exchange ∈ t.exchanges then
        some { t with bindings := t.bindings.insert (queue, exchange), nodup := t.nodup.insert }
      else none

/-- The queues bound to an exchange. -/
def bound (t : Topology) (exchange : String) : List String :=
  (t.bindings.filter fun b => b.2 = exchange).map Prod.fst

theorem mem_bound {t : Topology} {queue exchange : String} :
    queue ∈ t.bound exchange ↔ (queue, exchange) ∈ t.bindings := by
  simp [bound]

theorem nodup_bound (t : Topology) (exchange : String) : (t.bound exchange).Nodup := by
  refine List.Nodup.map_on ?_ (t.nodup.filter _)
  intro b hb b' hb' h
  have hexchange : b.2 = b'.2 := by
    rw [show b.2 = exchange by simpa using (List.mem_filter.mp hb).2,
      show b'.2 = exchange by simpa using (List.mem_filter.mp hb').2]
  exact Prod.ext h hexchange

end Topology

def topologyBroker : Broker Topology where
  empty := ⟨[], fun _ => none, [], List.nodup_nil⟩
  Has := Topology.Has
  declare := Topology.declare
  routes t queue := if (t.queues queue).isSome then [queue] else []
  expired t queue :=
    match t.queues queue with
    | some ⟨some exchange, some messageTtl⟩ => some (messageTtl, t.bound exchange)
    | _ => none

namespace Topology

variable {t t' : Topology} {d : Declaration}

theorem has_declare_iff (h : t.declare d = some t') (d' : Declaration) : t'.Has d' ↔ d' = d ∨ t.Has d' := by
  cases d with
  | exchange name =>
      obtain rfl := Option.some.inj h
      cases d' with
      | exchange name' => simp [Has]
      | queue _ _ | bind _ _ => simp [Has]
  | queue name options =>
      simp only [declare] at h
      split at h
      · rename_i hnone
        obtain rfl := Option.some.inj h
        cases d' with
        | queue name' options' =>
            by_cases hname : name' = name
            · subst hname
              simp [Has, hnone, eq_comm]
            · simp [Has, hname]
        | exchange _ | bind _ _ => simp [Has]
      · rename_i options' hold
        split at h
        · rename_i heq
          obtain rfl := Option.some.inj h
          constructor
          · exact Or.inr
          · rintro (rfl | hd')
            · rw [heq]
              exact hold
            · exact hd'
        · exact absurd h (by simp)
  | bind queue exchange =>
      simp only [declare] at h
      split at h
      · obtain rfl := Option.some.inj h
        cases d' with
        | bind queue' exchange' => simp [Has]
        | exchange _ | queue _ _ => simp [Has]
      · exact absurd h (by simp)

end Topology

theorem topologyBroker_lawful : topologyBroker.Lawful where
  empty d h := by
    cases d with
    | exchange name => exact absurd h List.not_mem_nil
    | queue name options => exact absurd h (by simp [topologyBroker, Topology.Has])
    | bind queue exchange => exact absurd h List.not_mem_nil
  declare _ _ _ h := Topology.has_declare_iff h
  accepts t d hready hother := by
    cases d with
    | exchange name => rfl
    | queue name options =>
        simp only [topologyBroker, Topology.declare]
        split
        · rfl
        · rename_i options' hold
          rw [if_pos (hother name options options' rfl hold)]
          rfl
    | bind queue exchange =>
        obtain ⟨⟨options, hqueue⟩, hexchange⟩ := hready
        have hsome : (t.queues queue).isSome := Option.isSome_iff_exists.mpr ⟨options, hqueue⟩
        have hdeclare : t.declare (.bind queue exchange) = some _ := if_pos ⟨hsome, hexchange⟩
        exact Option.isSome_iff_exists.mpr ⟨_, hdeclare⟩
  routes t name options h := if_pos (Option.isSome_iff_exists.mpr ⟨options, h⟩)
  expired t name exchange ttl h := by
    have hqueue : t.queues name = some ⟨some exchange, some ttl⟩ := h
    refine ⟨t.bound exchange, ?_, t.nodup_bound exchange, fun queue => Topology.mem_bound⟩
    simp only [topologyBroker, hqueue]
  stays t name deadLetterExchange h := by
    have hqueue : t.queues name = some ⟨deadLetterExchange, none⟩ := h
    simp only [topologyBroker, hqueue]

end ThunderBridge
