import EdgeSync.Event.Follower
import EdgeSync.Proofs.Event.Delivery

/-!
# Guests of a Broker

Several parties share a broker. What one of them does with its own subscriptions leaves those of
the others alone. So apart from the numbers that it has been given, the broker is at any time one
that it has never come to, if that one has not given out these numbers either. As soon as it has
dropped all its subscriptions nothing is left of it: each topic has as many subscriptions as it
would have without it.

## Main definitions

- `Broker.numbers`: the live subscriptions to a topic
- `Broker.Minds`: what a party does with its own subscriptions
- `Broker.Hosts`: a broker with some guests, and the same one without them

## Main results

- `Broker.Hosts.perform`, `Broker.Hosts.minds`: others, and the guests themselves
- `Broker.Hosts.start`: a follower comes to the broker
- `Broker.Hosts.count_eq`: the guests have gone
-/

namespace EdgeSync

namespace Broker

/-! ## The Numbers of a Topic -/

/-- The numbers of the live subscriptions to a topic. -/
def numbers (b : Broker) (topic : String) : List Nat :=
  (b.subscriptions.filter fun s => s.topic == topic).map (·.number)

variable {deeds : List Deed} {b c g : Broker} {topic : String} {number : Nat}

theorem count_eq_length (b : Broker) (topic : String) :
    b.count topic = (b.numbers topic).length := by
  rw [numbers, List.length_map]
  rfl

theorem Tells.numbers_eq (h : Tells deeds b) (topic : String) :
    b.numbers topic = Broker.live topic deeds :=
  (h.live topic).symm

theorem Tells.number_lt (h : Tells deeds b) (hmem : number ∈ b.numbers topic) :
    number < b.issued := by
  obtain ⟨s, hs, rfl⟩ := List.mem_map.mp hmem
  exact h.issued s (List.mem_of_mem_filter hs)

theorem numbers_subscribe (b : Broker) (t topic : String) :
    (b.subscribe t).2.numbers topic = b.numbers topic ++ if t = topic then [b.issued] else [] := by
  simp only [numbers, subscribe, List.filter_append, List.map_append]
  by_cases ht : t = topic
  · simp [ht]
  · simp [ht]

theorem numbers_drop (b : Broker) (n : Nat) (topic : String) :
    (b.drop n).2.numbers topic = (b.numbers topic).filter (· != n) := by
  simp only [numbers, drop, List.filter_map, List.filter_filter]
  congr 1
  exact List.filter_congr fun s _ => Bool.and_comm _ _

/-- How many numbers an operation is given. -/
def Operation.taken : Operation → Nat
  | .subscribe _ => 1
  | _ => 0

theorem issued_perform (b : Broker) (operation : Operation) :
    (b.perform operation).2.issued = b.issued + operation.taken := by
  cases operation with
  | publish e =>
    simp only [perform, publish]
    split
    · rfl
    · split <;> rfl
  | receive n =>
    simp only [perform, receive]
    split
    · rfl
    · split <;> rfl
  | subscribe t => rfl
  | drop n => rfl
  | close => rfl

/-- Operations that neither make nor end subscriptions. -/
def Operation.LeavesAll : Operation → Prop
  | .subscribe _ => False
  | .drop _ => False
  | _ => True

theorem Tells.numbers_perform (h : Tells deeds b) {operation : Operation}
    (hleaves : operation.LeavesAll) (topic : String) :
    (b.perform operation).2.numbers topic = b.numbers topic := by
  rw [(h.perform operation).numbers_eq, h.numbers_eq]
  cases operation with
  | subscribe t => cases hleaves
  | drop n => cases hleaves
  | publish e => rfl
  | receive n => rfl
  | close => rfl

theorem Tells.numbers_after (h : Tells deeds b) {operations : List Operation}
    (hleave : ∀ operation ∈ operations, operation.LeavesAll) :
    (∃ deeds, Tells deeds (b.after operations).2) ∧
      ∀ topic, (b.after operations).2.numbers topic = b.numbers topic := by
  induction operations with
  | nil => exact ⟨⟨deeds, h⟩, fun _ => rfl⟩
  | cons operation earlier ih =>
    obtain ⟨hlast, hearlier⟩ := List.forall_mem_cons.mp hleave
    obtain ⟨⟨deeds', htells⟩, hnumbers⟩ := ih hearlier
    refine ⟨⟨_, htells.perform operation⟩, fun topic => ?_⟩
    exact (htells.numbers_perform hlast topic).trans (hnumbers topic)

theorem Tells.count_after (h : Tells deeds b) {operations : List Operation}
    (hleave : ∀ operation ∈ operations, operation.LeavesAll) (topic : String) :
    (b.after operations).2.count topic = b.count topic := by
  rw [count_eq_length, (h.numbers_after hleave).2, count_eq_length]

/-- Some numbers are never given out. -/
def skip (b : Broker) (count : Nat) : Broker :=
  { b with issued := b.issued + count }

theorem skip_skip (b : Broker) (first second : Nat) :
    (b.skip first).skip second = b.skip (first + second) := by
  rw [skip, skip, skip, Nat.add_assoc]

theorem Tells.skip (h : Tells deeds b) (count : Nat) : Tells deeds (b.skip count) where
  isOpen := h.isOpen
  numbers := h.numbers
  issued := fun s hs => Nat.lt_add_right count (h.issued s hs)
  subscribed := fun topic number hmem => Nat.lt_add_right count (h.subscribed topic number hmem)
  unborn := fun number hle => h.unborn number (Nat.le_of_add_right_le hle)
  live := h.live
  channels := h.channels
  places := h.places
  waiting := h.waiting
  passed := h.passed
  yielded := h.yielded

/-! ## One's Own Subscriptions -/

/-- Operations that only those can ask for who hold a subscription of some numbers. -/
def Operation.Concerns (own : List Nat) : Operation → Prop
  | .receive n => n ∈ own
  | .drop n => n ∈ own
  | _ => False

/-- From one broker to another by operations on some numbers alone. -/
inductive Minds (own : List Nat) : Broker → Broker → Prop
  | refl (b : Broker) : Minds own b b
  | step {b c : Broker} (operation : Operation) (hconcerns : operation.Concerns own)
      (hrest : Minds own (b.perform operation).2 c) : Minds own b c

theorem Minds.trans {own : List Nat} {d : Broker} (h : Minds own b c) (h' : Minds own c d) :
    Minds own b d := by
  induction h with
  | refl b => exact h'
  | step operation hconcerns _ ih => exact .step operation hconcerns (ih h')

/-- To drop some of the numbers. -/
theorem minds_dropAll {own dropped : List Nat} (hall : dropped ⊆ own) (b : Broker) :
    Minds own b (dropped.foldl (fun b n => (b.drop n).2) b) := by
  induction dropped generalizing b with
  | nil => exact .refl b
  | cons n dropped ih =>
    obtain ⟨hn, hrest⟩ := List.cons_subset.mp hall
    exact .step (.drop n) hn (ih hrest _)

theorem numbers_dropAll (dropped : List Nat) (b : Broker) (topic : String) :
    (dropped.foldl (fun b n => (b.drop n).2) b).numbers topic =
      (b.numbers topic).filter (· ∉ dropped) := by
  induction dropped generalizing b with
  | nil => simp
  | cons n dropped ih =>
    rw [List.foldl_cons, ih, numbers_drop, List.filter_filter]
    refine List.filter_congr fun m _ => ?_
    by_cases hm : m = n
    · simp [hm]
    · simp [hm]

/-- Some numbers have no subscriptions. -/
def Lacks (own : List Nat) (b : Broker) : Prop :=
  ∀ n ∈ own, ∀ topic, n ∉ b.numbers topic

/-- A follower that ends has no subscriptions any more. -/
theorem lacks_stop (f : Follower) (b : Broker) : Lacks f.subscriptions (f.stop b).2 := by
  intro n hn topic hmem
  have hstop : (f.stop b).2.numbers topic = (b.numbers topic).filter (· ∉ f.subscriptions) :=
    numbers_dropAll f.subscriptions b topic
  rw [hstop, List.mem_filter] at hmem
  exact of_decide_eq_true hmem.2 hn

/-! ## Guests -/

/-- A broker with the subscriptions of another one and, besides, at most those of some guests. The
other one gives out the same numbers from now on. -/
structure Hosts (guests : List Nat) (b g : Broker) : Prop where
  told : ∃ deeds, Tells deeds b
  alone : ∃ deeds, Tells deeds g
  issued : b.issued = g.issued
  old : ∀ n ∈ guests, n < b.issued
  numbers : ∀ topic, (b.numbers topic).filter (· ∉ guests) = g.numbers topic

theorem Tells.hosts (h : Tells deeds b) : Hosts [] b b where
  told := ⟨deeds, h⟩
  alone := ⟨deeds, h⟩
  issued := rfl
  old := nofun
  numbers := fun topic => by simp

variable {guests : List Nat}

/-- What others do is the same with guests and without them. -/
theorem Hosts.perform (h : Hosts guests b g) (operation : Operation) :
    Hosts guests (b.perform operation).2 (g.perform operation).2 := by
  obtain ⟨deeds, htells⟩ := h.told
  obtain ⟨deeds', htells'⟩ := h.alone
  refine ⟨⟨_, htells.perform operation⟩, ⟨_, htells'.perform operation⟩, ?_, fun n hn => ?_,
    fun topic => ?_⟩
  · rw [issued_perform, issued_perform, h.issued]
  · rw [issued_perform]
    exact Nat.lt_add_right _ (h.old n hn)
  · have hothers (hleaves : operation.LeavesAll) :
        ((b.perform operation).2.numbers topic).filter (· ∉ guests) =
          (g.perform operation).2.numbers topic := by
      rw [htells.numbers_perform hleaves, htells'.numbers_perform hleaves, h.numbers]
    cases operation with
    | subscribe t =>
      -- The new number is not one of the guests'.
      have hnew : b.issued ∉ guests := fun hmem => Nat.lt_irrefl _ (h.old _ hmem)
      show ((b.subscribe t).2.numbers topic).filter _ = (g.subscribe t).2.numbers topic
      rw [numbers_subscribe, numbers_subscribe, List.filter_append, h.numbers, ← h.issued]
      split
      · simp [hnew]
      · rfl
    | drop n =>
      show ((b.drop n).2.numbers topic).filter _ = (g.drop n).2.numbers topic
      rw [numbers_drop, numbers_drop, ← h.numbers, List.filter_filter, List.filter_filter]
      exact List.filter_congr fun m _ => Bool.and_comm _ _
    | publish e => exact hothers trivial
    | receive n => exact hothers trivial
    | close => exact hothers trivial

/-- What a guest does with its own subscriptions does not concern the others. -/
theorem Hosts.concern (h : Hosts guests b g) {operation : Operation}
    (hconcerns : operation.Concerns guests) : Hosts guests (b.perform operation).2 g := by
  obtain ⟨deeds, htells⟩ := h.told
  have hissued : (b.perform operation).2.issued = b.issued := by
    rw [issued_perform]
    cases operation with
    | subscribe t => cases hconcerns
    | _ => rfl
  refine ⟨⟨_, htells.perform operation⟩, h.alone, hissued.trans h.issued, ?_, fun topic => ?_⟩
  · rw [hissued]
    exact h.old
  · have hothers (hleaves : operation.LeavesAll) :
        ((b.perform operation).2.numbers topic).filter (· ∉ guests) = g.numbers topic := by
      rw [htells.numbers_perform hleaves, h.numbers]
    cases operation with
    | drop n =>
      show ((b.drop n).2.numbers topic).filter _ = g.numbers topic
      rw [numbers_drop, List.filter_filter, ← h.numbers]
      refine List.filter_congr fun m _ => ?_
      by_cases hm : m = n
      · subst hm
        have hguest : m ∈ guests := hconcerns
        simp [hguest]
      · simp [hm]
    | receive n => exact hothers trivial
    | subscribe t => cases hconcerns
    | publish e => cases hconcerns
    | close => cases hconcerns

variable {own : List Nat}

theorem Operation.Concerns.mono {operation : Operation} (h : operation.Concerns own)
    (hall : own ⊆ guests) : operation.Concerns guests := by
  cases operation with
  | receive n => exact hall h
  | drop n => exact hall h
  | subscribe t => cases h
  | publish e => cases h
  | close => cases h

theorem Hosts.minds (h : Hosts guests b g) (hall : own ⊆ guests) (hminds : Minds own b c) :
    Hosts guests c g := by
  induction hminds with
  | refl b => exact h
  | step operation hconcerns _ ih => exact ih (h.concern (hconcerns.mono hall))

/-! ## Guests That Have Gone -/

/-- A number that has no subscription never gets one. -/
theorem Hosts.lacks_perform (h : Hosts guests b g) (hall : own ⊆ guests) (hlacks : Lacks own b)
    (operation : Operation) : Lacks own (b.perform operation).2 := by
  obtain ⟨deeds, htells⟩ := h.told
  intro n hn topic
  have hold : n ≠ b.issued := Nat.ne_of_lt (h.old n (hall hn))
  -- Only a new subscription could bring it back, and that has a new number.
  have hbefore := hlacks n hn topic
  have hothers (hleaves : operation.LeavesAll) : n ∉ (b.perform operation).2.numbers topic := by
    rwa [htells.numbers_perform hleaves]
  cases operation with
  | subscribe t =>
    show n ∉ (b.subscribe t).2.numbers topic
    rw [numbers_subscribe, List.mem_append, not_or]
    refine ⟨hbefore, ?_⟩
    split
    · rwa [List.mem_singleton]
    · exact List.not_mem_nil
  | drop m =>
    show n ∉ (b.drop m).2.numbers topic
    rw [numbers_drop]
    exact fun hmem => hbefore (List.mem_of_mem_filter hmem)
  | publish e => exact hothers trivial
  | receive m => exact hothers trivial
  | close => exact hothers trivial

theorem Hosts.lacks_minds {other : List Nat} (h : Hosts guests b g) (hall : own ⊆ guests)
    (hlacks : Lacks own b) (hother : other ⊆ guests) (hminds : Minds other b c) :
    Lacks own c := by
  induction hminds with
  | refl b => exact hlacks
  | step operation hconcerns _ ih =>
    exact ih (h.concern (hconcerns.mono hother)) (h.lacks_perform hall hlacks operation)

/-- When the guests have gone, each topic has as many subscriptions as without them. -/
theorem Hosts.count_eq (h : Hosts guests b g) (hgone : Lacks guests b) (topic : String) :
    b.count topic = g.count topic := by
  have hall : (b.numbers topic).filter (· ∉ guests) = b.numbers topic := by
    rw [List.filter_eq_self]
    intro n hn
    exact decide_eq_true fun hguest => hgone n hguest topic hn
  rw [count_eq_length, count_eq_length, ← h.numbers, hall]

/-! ## Guests That Come -/

/-- A new guest subscribes, and its number is skipped where there are no guests. -/
theorem Hosts.subscribe (h : Hosts guests b g) (t : String) :
    Hosts (guests ++ [b.issued]) (b.subscribe t).2 (g.skip 1) := by
  obtain ⟨deeds, htells⟩ := h.told
  obtain ⟨deeds', htells'⟩ := h.alone
  refine ⟨⟨_, htells.subscribe t⟩, ⟨deeds', htells'.skip 1⟩, congrArg (· + 1) h.issued, ?_, ?_⟩
  · intro n hn
    show n < b.issued + 1
    rcases List.mem_append.mp hn with hold | hnew
    · have hlt := h.old n hold
      omega
    · rw [List.mem_singleton.mp hnew]
      exact Nat.lt_succ_self _
  · intro topic
    have hnone : (if t = topic then [b.issued] else []).filter (· ∉ guests ++ [b.issued]) = [] := by
      split <;> simp
    have hold : (b.numbers topic).filter (· ∉ guests ++ [b.issued]) =
        (b.numbers topic).filter (· ∉ guests) := by
      refine List.filter_congr fun n hn => ?_
      have hne : n ≠ b.issued := Nat.ne_of_lt (htells.number_lt hn)
      simp [hne]
    rw [numbers_subscribe, List.filter_append, hnone, hold, List.append_nil]
    exact h.numbers topic

theorem Hosts.subscribeAll (h : Hosts guests b g) (topics : List String) :
    Hosts (guests ++ (Follower.subscribeAll b topics).1) (Follower.subscribeAll b topics).2
      (g.skip topics.length) := by
  induction topics generalizing guests b g with
  | nil =>
    rw [Follower.subscribeAll, List.append_nil]
    exact h
  | cons t topics ih =>
    have hrest := ih (h.subscribe t)
    rw [List.append_assoc, skip_skip, Nat.add_comm] at hrest
    exact hrest

/-- A follower comes to a broker. -/
theorem Hosts.start (h : Hosts guests b g) (topics : List String) :
    Hosts (guests ++ (Follower.start b topics).1.subscriptions) (Follower.start b topics).2
      (g.skip topics.length) :=
  h.subscribeAll topics

end Broker

end EdgeSync
