import EdgeSync.Proofs.Agent.Dwindling
import EdgeSync.Proofs.Event.Guests

/-!
# The Broker of an Agent

The three followers of an agent come to a broker that others use as well. A follower holds its
subscriptions until it ends, and takes events from them alone; all else that an agent does with the
broker is to publish events. So the broker has the subscriptions that it would have without the
agent and, besides, those of the followers that have not ended, whatever the agent, its tasks and
the others do in the meantime.

## Main definitions

- `Broker.Houses`: a broker with some followers, and the same one without them
- `Workshop.Housed`: the broker of an agent with its followers
- `Workshop.without`: the broker that the others would have without the agent

## Main results

- `Broker.Houses.move`, `Broker.Houses.start`: what a follower does
- `Workshop.Housed.turn`, `Workshop.housed_after`: the broker of an agent
- `Workshop.Housed.count_eq`: the broker when the followers have ended
-/

namespace EdgeSync

open Broker (Hosts Lacks Minds Tells)

/-! ## What a Follower Does -/

namespace Patrol

/-- A follower that has ended has no subscriptions any more. -/
def Ebbs (p : Patrol) (b : Broker) : Prop :=
  p.follower.isRunning = false → Lacks p.follower.subscriptions b

/-- From a follower and its broker to the same one a little later, by its own doing. -/
structure Minds (p : Patrol) (b : Broker) (p' : Patrol) (b' : Broker) : Prop where
  subscriptions : p'.follower.subscriptions = p.follower.subscriptions
  minds : Broker.Minds p.follower.subscriptions b b'
  ebbs : p.Ebbs b → p'.Ebbs b'

variable {p : Patrol} {b : Broker}

theorem Minds.refl (p : Patrol) (b : Broker) : p.Minds b p b :=
  ⟨rfl, .refl b, id⟩

theorem Minds.trans {p' p'' : Patrol} {b' b'' : Broker} (h : p.Minds b p' b')
    (h' : p'.Minds b' p'' b'') : p.Minds b p'' b'' :=
  ⟨h'.subscriptions.trans h.subscriptions, h.minds.trans (h.subscriptions ▸ h'.minds),
    fun hebbs => h'.ebbs (h.ebbs hebbs)⟩

theorem minds_stop (p : Patrol) (b : Broker) : p.Minds b (p.stop b).1 (p.stop b).2 :=
  ⟨rfl, Broker.minds_dropAll (List.Subset.refl _) b, fun _ _ => Broker.lacks_stop _ _⟩

theorem minds_look (p : Patrol) (b : Broker) : p.Minds b (p.look b).2.1 (p.look b).2.2 := by
  cases hruns : p.follower.isRunning with
  | false =>
    rw [look_ended hruns]
    exact .refl p b
  | true =>
    have hgoes : ¬ p.follower.isRunning = false := by simp [hruns]
    cases hat : p.follower.subscriptions[p.position]? with
    | none =>
      rw [look_around hruns hat]
      exact ⟨rfl, .refl b, fun _ hended => absurd hended hgoes⟩
    | some number =>
      have hreceive : Broker.Minds p.follower.subscriptions b (b.receive number).2.2 :=
        .step (.receive number) (List.mem_of_getElem? hat) (.refl _)
      rcases hfound : b.receive number with ⟨receipt, lost, after⟩
      rw [hfound] at hreceive
      cases receipt with
      | event e =>
        rw [look_event hruns hat hfound]
        exact ⟨rfl, hreceive, fun _ hended => absurd hended hgoes⟩
      | nothing =>
        rw [look_nothing hruns hat hfound]
        exact ⟨rfl, hreceive, fun _ hended => absurd hended hgoes⟩
      | closed =>
        rw [look_closed hruns hat hfound]
        exact ⟨rfl, hreceive.trans (minds_stop p after).minds,
          fun _ _ => Broker.lacks_stop p.follower after⟩

theorem minds_poll (p : Patrol) (isCanceled : Bool) (b : Broker) :
    p.Minds b (p.poll isCanceled b).2.1 (p.poll isCanceled b).2.2 := by
  unfold poll
  split
  · exact minds_stop p b
  · exact minds_look p b

end Patrol

/-! ## Followers at a Broker -/

namespace Broker

variable {b g : Broker} {guests guests' own : List Nat}

/-- Who the guests are does not depend on how they are listed. -/
theorem Hosts.congr (h : Hosts guests b g) (hsame : ∀ n, n ∈ guests' ↔ n ∈ guests) :
    Hosts guests' b g := by
  refine ⟨h.told, h.alone, h.issued, fun n hn => h.old n ((hsame n).mp hn), fun topic => ?_⟩
  rw [← h.numbers topic]
  exact List.filter_congr fun n _ => by simp [hsame n]

/-- An event makes and ends no subscriptions. -/
theorem Hosts.publish (h : Hosts guests b g) (e : Event) : Hosts guests (b.publish e).2 g := by
  obtain ⟨deeds, htells⟩ := h.told
  have hissued := issued_perform b (.publish e)
  refine ⟨⟨_, htells.perform (.publish e)⟩, h.alone, ?_, fun n hn => ?_, fun topic => ?_⟩
  · exact hissued.trans h.issued
  · exact lt_of_lt_of_eq (h.old n hn) hissued.symm
  · have hleaves : Operation.LeavesAll (.publish e) := trivial
    have hnumbers := htells.numbers_perform hleaves topic
    exact (congrArg _ hnumbers).trans (h.numbers topic)

/-- New subscriptions are none of the old ones. -/
theorem Hosts.lacks_subscribeAll (h : Hosts guests b g) (hall : own ⊆ guests) (hlacks : Lacks own b)
    (topics : List String) : Lacks own (Follower.subscribeAll b topics).2 := by
  induction topics generalizing guests b g with
  | nil => exact hlacks
  | cons t topics ih =>
    exact ih (h.subscribe t) (fun n hn => List.mem_append_left _ (hall hn))
      (h.lacks_perform hall hlacks (.subscribe t))

/-- The numbers of the subscriptions of some followers. -/
def held (parties : List Patrol) : List Nat :=
  parties.flatMap fun p => p.follower.subscriptions

/-- A broker with some followers that is otherwise like another one where they have never been. -/
structure Houses (parties : List Patrol) (b g : Broker) : Prop where
  hosts : Hosts (held parties) b g
  ebbs : ∀ p ∈ parties, p.Ebbs b

variable {parties front back : List Patrol} {p p' : Patrol} {b' : Broker}

theorem subset_held (hp : p ∈ parties) : p.follower.subscriptions ⊆ held parties :=
  fun _ hn => List.mem_flatMap.mpr ⟨p, hp, hn⟩

theorem held_split (front back : List Patrol) (p : Patrol) :
    held (front ++ p :: back) = held front ++ (p.follower.subscriptions ++ held back) := by
  rw [held, List.flatMap_append, List.flatMap_cons]
  rfl

/-- What others do. -/
theorem Houses.perform (h : Houses parties b g) (operation : Operation) :
    Houses parties (b.perform operation).2 (g.perform operation).2 :=
  ⟨h.hosts.perform operation, fun p hp hended =>
    h.hosts.lacks_perform (subset_held hp) (h.ebbs p hp hended) operation⟩

/-- An event of the agent. -/
theorem Houses.publish (h : Houses parties b g) (e : Event) :
    Houses parties (b.publish e).2 g :=
  ⟨h.hosts.publish e, fun p hp hended =>
    h.hosts.lacks_perform (subset_held hp) (h.ebbs p hp hended) (.publish e)⟩

theorem mem_split : p ∈ front ++ p :: back :=
  List.mem_append_right front List.mem_cons_self

/-- Those who stay when one of several followers is replaced. -/
theorem mem_of_mem_replace {q : Patrol} (hq : q ∈ front ++ p' :: back) :
    q = p' ∨ q ∈ front ++ p :: back := by
  rw [List.mem_append, List.mem_cons] at hq ⊢
  rcases hq with hfront | rfl | hback
  · exact .inr (.inl hfront)
  · exact .inl rfl
  · exact .inr (.inr (.inr hback))

/-- What one of the followers does leaves the others what they have. -/
theorem Houses.move (front : List Patrol) (h : Houses (front ++ p :: back) b g)
    (hminds : p.Minds b p' b') :
    Houses (front ++ p' :: back) b' g := by
  refine ⟨?_, fun q hq => ?_⟩
  · have hsame : held (front ++ p' :: back) = held (front ++ p :: back) := by
      rw [held_split, held_split, hminds.subscriptions]
    rw [hsame]
    exact h.hosts.minds (subset_held mem_split) hminds.minds
  · rcases mem_of_mem_replace (p := p) hq with rfl | hold
    · exact hminds.ebbs (h.ebbs p mem_split)
    · exact fun hended => h.hosts.lacks_minds (subset_held hold) (h.ebbs q hold hended)
        (subset_held mem_split) hminds.minds

/-- A follower takes the place of one that has no subscriptions. -/
theorem Houses.start (front : List Patrol) (h : Houses (front ++ p :: back) b g)
    (hidle : p.follower.subscriptions = []) (topics : List String) :
    Houses (front ++ .of (Follower.start b topics).1 :: back) (Follower.start b topics).2
      (g.skip topics.length) := by
  refine ⟨(h.hosts.start topics).congr fun n => ?_, fun q hq => ?_⟩
  · simp only [held_split, hidle, Patrol.of, List.mem_append, List.nil_append]
    tauto
  · rcases mem_of_mem_replace (p := p) hq with rfl | hold
    · rintro ⟨⟩
    · exact fun hended =>
        h.hosts.lacks_subscribeAll (subset_held hold) (h.ebbs q hold hended) topics

end Broker

/-! ## The Followers of an Agent -/

/-- How many subscriptions the next turn of the start makes. -/
def Starting.taken : Starting → Nat
  | .journal _ => Journal.topics.length
  | .listener _ => Reconciler.topics.length
  | .stops _ => 1
  | _ => 0

namespace Workshop

variable {w : Workshop}

/-- The followers. -/
def parties (w : Workshop) : List Patrol :=
  [w.journal, w.listener, w.stopListener]

/-- The site with the followers. -/
def floor (w : Workshop) : Site × List Patrol :=
  (w.site, w.parties)

theorem floor_start (hbegun : w.starting.isBegun = true) : w.start.floor = w.floor := by
  unfold start
  split
  case h_1 hstarting | h_2 hstarting | h_3 hstarting =>
    rw [hstarting] at hbegun
    cases hbegun
  case h_5 t expression rest ids hstarting =>
    rcases w.ask_cases t.number t.name expression with ⟨fault, hask⟩ | ⟨-, schedule, -, hask⟩
    · rw [hask]
      rfl
    · rw [hask]
      rfl
  case h_6 call rest ids hstarting =>
    unfold enter
    split <;> rfl
  all_goals rfl

/-- The turns of those who use the broker. -/
def Turn.usesBroker : Turn → Bool
  | .start | .journal | .listener | .stops _ | .work _ _ | .other _ => true
  | _ => false

/-- All others leave the site and the followers alone. -/
theorem floor_turn {t : Turn} (h : t.usesBroker = false) (w : Workshop) :
    (w.turn t).floor = w.floor := by
  cases t with
  | start | journal | listener | stops eventFirst | work i deed | other operation => cases h
  | wake l =>
    simp only [turn, wake]
    split <;> rfl
  | tick l =>
    simp only [turn, tick]
    split <;> rfl
  | leave l =>
    simp only [turn, leave]
    split <;> rfl
  | step i move =>
    simp only [turn, step]
    split
    · rfl
    · split
      · split <;> rfl
      · rfl
  | retire i =>
    simp only [turn, retire]
    split
    · rfl
    · split <;> rfl
  | ask task name expression =>
    simp only [turn]
    split
    · rcases w.ask_cases task name expression with ⟨fault, hask⟩ | ⟨-, schedule, -, hask⟩
      · rw [hask]
      · rw [hask]
        rfl
    · rfl
  | enter k =>
    simp only [turn, enter]
    split
    · rfl
    · split <;> rfl
  | unschedule id =>
    simp only [turn]
    split <;> rfl
  | reach scope =>
    simp only [turn]
    split
    · cases scope <;> rfl
    · rfl
  | drain =>
    simp only [turn, drain]
    split <;> rfl
  | close =>
    simp only [turn, close]
    split <;> rfl
  | await =>
    simp only [turn, await]
    split
    · rfl
    · split <;> rfl
    · split <;> rfl
    · split <;> rfl
    · rfl
    · rfl
  | drop =>
    simp only [turn, drop]
    split <;> rfl
  | pass millis => rfl

end Workshop

/-- How many followers have begun. -/
def Starting.followers : Starting → Nat
  | .journal _ => 0
  | .listener _ => 1
  | .stops _ => 2
  | _ => 3

namespace Workshop

variable {w : Workshop} {g : Broker}

/-- What a turn makes of the broker that the others would have without the agent. The numbers that
the agent is given are given to nobody. -/
def spare (w : Workshop) (g : Broker) : Turn → Broker
  | .start => g.skip w.starting.taken
  | .other operation => (g.perform operation).2
  | _ => g

/-- The broker that the others would have without the agent. -/
def without (w : Workshop) : List Turn → Broker
  | [] => w.site.broker
  | t :: earlier => (w.after earlier).spare (w.without earlier) t

/-- An agent at a broker that is otherwise like one where it has never been. -/
structure Housed (g : Broker) (w : Workshop) : Prop where
  houses : Broker.Houses w.parties w.site.broker g
  journal : w.starting.followers = 0 → w.journal = .idle
  listener : w.starting.followers ≤ 1 → w.listener = .idle
  stopListener : w.starting.followers ≤ 2 → w.stopListener = .idle

theorem housed_vacant {deeds : List Broker.Deed} {site : Site} (h : Tells deeds site.broker)
    (wall : Time.Instant) : Housed site.broker (vacant site wall) := by
  refine ⟨⟨?_, fun p hp _ => ?_⟩, fun _ => rfl, fun _ => rfl, fun _ => rfl⟩
  · exact h.hosts
  · have hidle : p = .idle := by simpa [parties, vacant] using hp
    rw [hidle]
    nofun

/-- A turn that leaves the site, the followers and the start alone. -/
theorem Housed.same {w' : Workshop} (h : Housed g w) (hfloor : w'.floor = w.floor)
    (hstarting : w'.starting = w.starting) : Housed g w' := by
  have hbroker : w'.site.broker = w.site.broker := congrArg (·.1.broker) hfloor
  have hparties : w'.parties = w.parties := congrArg Prod.snd hfloor
  obtain ⟨hjournal, hlistener, hstops⟩ :
      w'.journal = w.journal ∧ w'.listener = w.listener ∧ w'.stopListener = w.stopListener := by
    simpa [parties] using hparties
  refine ⟨?_, ?_, ?_, ?_⟩
  · rw [hparties, hbroker]
    exact h.houses
  · rw [hstarting, hjournal]
    exact h.journal
  · rw [hstarting, hlistener]
    exact h.listener
  · rw [hstarting, hstops]
    exact h.stopListener

theorem poll_idle (isCanceled : Bool) (b : Broker) :
    Patrol.idle.poll isCanceled b = (none, .idle, b) :=
  Patrol.poll_ended rfl isCanceled b

theorem Housed.runJournal (h : Housed g w) : Housed g w.runJournal := by
  have hminds := w.journal.minds_poll w.isCanceled w.site.broker
  refine ⟨h.houses.move [] hminds, fun hnone => ?_, h.listener, h.stopListener⟩
  show (w.journal.poll w.isCanceled w.site.broker).2.1 = .idle
  rw [h.journal hnone, poll_idle]

theorem Housed.runListener (h : Housed g w) : Housed g w.runListener := by
  have hminds := w.listener.minds_poll w.isCanceled w.site.broker
  refine ⟨h.houses.move [w.journal] hminds, h.journal, fun hnone => ?_, h.stopListener⟩
  show (w.listener.poll w.isCanceled w.site.broker).2.1 = .idle
  rw [h.listener hnone, poll_idle]

/-- The listener to stop events looks, or ends, or both. -/
theorem runStops_minds (w : Workshop) (eventFirst : Bool) :
    ∃ stopListener broker scheduler stopping,
      w.runStops eventFirst = { w.putBroker broker with stopListener, scheduler, stopping } ∧
        w.stopListener.Minds w.site.broker stopListener broker := by
  have hstop := w.stopListener.minds_stop w.site.broker
  have hlook := w.stopListener.minds_look w.site.broker
  unfold runStops
  split
  · split
    · exact ⟨_, _, _, _, rfl, hstop⟩
    · rcases hfound : w.stopListener.look w.site.broker with ⟨found, p, b⟩
      rw [hfound] at hlook
      have hboth := hlook.trans (p.minds_stop b)
      cases found with
      | none =>
        dsimp only
        split
        · exact ⟨_, _, _, _, rfl, hboth⟩
        · exact ⟨_, _, _, _, rfl, hlook⟩
      | some d =>
        dsimp only
        split
        · exact ⟨_, _, _, _, rfl, hboth⟩
        · exact ⟨_, _, _, _, rfl, hlook⟩
  · exact ⟨_, _, _, _, rfl, .refl _ _⟩

theorem runStops_idle (hidle : w.stopListener = .idle) (eventFirst : Bool) :
    w.runStops eventFirst = w := by
  rw [runStops, hidle]
  rfl

theorem Housed.runStops (h : Housed g w) (eventFirst : Bool) :
    Housed g (w.runStops eventFirst) := by
  by_cases hnone : w.starting.followers ≤ 2
  · rw [runStops_idle (h.stopListener hnone)]
    exact h
  · obtain ⟨stopListener, broker, scheduler, stopping, heq, hminds⟩ :=
      w.runStops_minds eventFirst
    rw [heq]
    exact ⟨h.houses.move [w.journal, w.listener] hminds, h.journal, h.listener,
      fun hle => absurd hle hnone⟩

theorem Housed.work (h : Housed g w) (i : Nat) (deed : Work) : Housed g (w.work i deed) := by
  unfold Workshop.work
  split
  · cases deed with
    | publish e => exact ⟨h.houses.publish e, h.journal, h.listener, h.stopListener⟩
    | _ => exact ⟨h.houses, h.journal, h.listener, h.stopListener⟩
  · exact h

theorem Housed.start (h : Housed g w) : Housed (g.skip w.starting.taken) w.start := by
  by_cases hbegun : w.starting.isBegun = true
  · have hskip : g.skip w.starting.taken = g := by
      cases hstarting : w.starting with
      | journal rest | listener rest | stops rest =>
        rw [hstarting] at hbegun
        cases hbegun
      | _ => rfl
    have hafter : ¬ w.start.starting.followers ≤ 2 := by
      have hstays := (stays_start w).begun hbegun
      cases hstarting : w.start.starting with
      | journal rest | listener rest | stops rest =>
        rw [hstarting] at hstays
        cases hstays
      | _ => simp [Starting.followers]
    have hfloor := floor_start hbegun
    have hbroker : w.start.site.broker = w.site.broker := congrArg (·.1.broker) hfloor
    have hparties : w.start.parties = w.parties := congrArg Prod.snd hfloor
    rw [hskip]
    refine ⟨?_, fun hnone => absurd (by omega) hafter, fun hnone => absurd (by omega) hafter,
      fun hnone => absurd hnone hafter⟩
    rw [hparties, hbroker]
    exact h.houses
  · cases hstarting : w.starting with
    | journal rest =>
      have hidle := h.journal (by rw [hstarting]; rfl)
      have hhouses := h.houses.start [] (congrArg (·.follower.subscriptions) hidle)
        Journal.topics
      rw [Workshop.start, hstarting]
      exact ⟨hhouses, by simp [Starting.followers],
        fun _ => h.listener (by simp [hstarting, Starting.followers]),
        fun _ => h.stopListener (by simp [hstarting, Starting.followers])⟩
    | listener rest =>
      have hidle := h.listener (by simp [hstarting, Starting.followers])
      have hhouses := h.houses.start [w.journal]
        (congrArg (·.follower.subscriptions) hidle) Reconciler.topics
      rw [Workshop.start, hstarting]
      exact ⟨hhouses, by simp [Starting.followers], by simp [Starting.followers],
        fun _ => h.stopListener (by simp [hstarting, Starting.followers])⟩
    | stops rest =>
      have hidle := h.stopListener (by simp [hstarting, Starting.followers])
      have hhouses := h.houses.start [w.journal, w.listener]
        (congrArg (·.follower.subscriptions) hidle) [Topic.stop]
      rw [Workshop.start, hstarting]
      refine ⟨hhouses, ?_, ?_, ?_⟩
      all_goals simp [Starting.followers]
    | _ =>
      rw [hstarting] at hbegun
      exact absurd rfl hbegun

theorem Housed.turn (h : Housed g w) (t : Turn) : Housed (w.spare g t) (w.turn t) := by
  cases t with
  | start => exact h.start
  | journal => exact h.runJournal
  | listener => exact h.runListener
  | stops eventFirst => exact h.runStops eventFirst
  | work i deed => exact h.work i deed
  | other operation =>
    exact ⟨h.houses.perform operation, h.journal, h.listener, h.stopListener⟩
  | _ => exact h.same (floor_turn (by rfl) w) (starting_turn (by nofun) w)

/-- The agent comes to a broker that others use as well. -/
theorem housed_after {deeds : List Broker.Deed} {site : Site} (h : Tells deeds site.broker)
    (wall : Time.Instant) (turns : List Turn) :
    Housed ((vacant site wall).without turns) ((vacant site wall).after turns) := by
  induction turns with
  | nil => exact housed_vacant h wall
  | cons t earlier ih => exact ih.turn t

/-- When all its followers have ended, each topic has as many subscriptions as without it. -/
theorem Housed.count_eq (h : Housed g w) (hjournal : w.journal.follower.isRunning = false)
    (hlistener : w.listener.follower.isRunning = false)
    (hstops : w.stopListener.follower.isRunning = false) (topic : String) :
    w.site.broker.count topic = g.count topic := by
  have hall : ∀ p ∈ w.parties, p.follower.isRunning = false := by
    simp [parties, hjournal, hlistener, hstops]
  refine h.houses.hosts.count_eq (fun n hn => ?_) topic
  obtain ⟨p, hp, hmem⟩ := List.mem_flatMap.mp hn
  exact h.houses.ebbs p hp (hall p hp) n hmem

/-- Without the agent the subscriptions stay as they are, unless others subscribe or drop theirs. -/
theorem count_without {deeds : List Broker.Deed} {site : Site} (h : Tells deeds site.broker)
    (wall : Time.Instant) {turns : List Turn}
    (hleave : ∀ operation, .other operation ∈ turns → operation.LeavesAll) (topic : String) :
    ((vacant site wall).without turns).count topic = site.broker.count topic := by
  induction turns with
  | nil => rfl
  | cons t earlier ih =>
    have hearlier := ih fun operation hmem => hleave operation (List.mem_cons_of_mem t hmem)
    cases t with
    | other operation =>
      obtain ⟨deeds', htells⟩ := (housed_after h wall earlier).houses.hosts.alone
      have hleaves : ∀ o ∈ [operation], o.LeavesAll := by
        simpa using hleave operation List.mem_cons_self
      have hlast := htells.count_after hleaves topic
      exact hlast.trans hearlier
    | _ => exact hearlier

end Workshop

end EdgeSync
