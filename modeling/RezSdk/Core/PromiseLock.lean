import Mathlib.Data.List.Basic

/-!
# Promise-chain mutexes

A table of promise tails, one per key. A call chains itself after the current
tail of its key and becomes the new tail (`chain`), waits for the tail it
found to settle (`enter`), and in the end settles its own promise (`settle`)
and removes the table entry if it is still the tail (`drop`); `release` does
both at once. A promise is a number; `tickets` records who chained what,
`entered` and `settled` how far each ticket has come.

* `Inv.exclusive`: at most one ticket of a key has entered and not settled.
* `Line.order`: the tickets of a key enter in the order in which they were
  chained, and none of them twice.
* `Inv.front`: while a ticket of a key has not settled, one of them waits for
  nothing.
-/
namespace RezSdk.PromiseLock

structure Ticket (K : Type) where
  key : K
  owner : Nat
  prev : Option Nat
  pid : Nat
deriving DecidableEq

structure Locks (K : Type) where
  next : Nat
  tail : K → Option Nat
  tickets : List (Ticket K)
  entered : List Nat
  settled : List Nat

variable {K : Type}

def empty : Locks K := ⟨0, fun _ => none, [], [], []⟩

/-- Read the tail of `k` and replace it by a new promise. -/
def chain [DecidableEq K] (s : Locks K) (t : Nat) (k : K) : (Option Nat × Nat) × Locks K :=
  ((s.tail k, s.next),
    { s with
      next := s.next + 1
      tail := fun k' => if k' = k then some s.next else s.tail k'
      tickets := ⟨k, t, s.tail k, s.next⟩ :: s.tickets })

/-- `await previous`: possible once the previous promise has settled. -/
def enter (s : Locks K) (prev : Option Nat) (pid : Nat) : Option (Locks K) :=
  match prev with
  | none => some { s with entered := pid :: s.entered }
  | some q => if q ∈ s.settled then some { s with entered := pid :: s.entered } else none

def settle (s : Locks K) (pid : Nat) : Locks K := { s with settled := pid :: s.settled }

/-- Drop the entry unless someone chained after it. -/
def drop [DecidableEq K] (s : Locks K) (k : K) (pid : Nat) : Locks K :=
  { s with tail := fun k' => if k' = k ∧ s.tail k = some pid then none else s.tail k' }

/-- Settle the promise, and drop the entry unless someone chained after it. -/
def release [DecidableEq K] (s : Locks K) (k : K) (pid : Nat) : Locks K :=
  { s with
    settled := pid :: s.settled
    tail := fun k' => if k' = k ∧ s.tail k = some pid then none else s.tail k' }

/-- The ticket's critical section is open. -/
def Holds (s : Locks K) (a : Ticket K) : Prop :=
  a ∈ s.tickets ∧ a.pid ∈ s.entered ∧ a.pid ∉ s.settled

structure Inv (s : Locks K) : Prop where
  bound : ∀ a ∈ s.tickets, a.pid < s.next
  uniq : ∀ a ∈ s.tickets, ∀ b ∈ s.tickets, a.pid = b.pid → a = b
  known : ∀ p ∈ s.entered, p < s.next
  opened : ∀ p ∈ s.settled, p ∈ s.entered
  tail_some : ∀ k p, s.tail k = some p → ∃ a ∈ s.tickets, a.key = k ∧ a.pid = p
  tail_max : ∀ k p, s.tail k = some p → ∀ b ∈ s.tickets, b.key = k → b.pid ≤ p
  tail_none : ∀ k, s.tail k = none → ∀ b ∈ s.tickets, b.key = k → b.pid ∈ s.settled
  prev_ticket : ∀ a ∈ s.tickets, ∀ q, a.prev = some q → ∃ b ∈ s.tickets, b.key = a.key ∧ b.pid = q
  behind : ∀ a ∈ s.tickets, ∀ b ∈ s.tickets, b.key = a.key → b.pid < a.pid →
    b.pid ∈ s.settled ∨ ∃ q, a.prev = some q ∧ b.pid ≤ q
  ahead : ∀ a ∈ s.tickets, ∀ b ∈ s.tickets, b.key = a.key → b.pid < a.pid →
    a.pid ∈ s.entered → b.pid ∈ s.settled

theorem inv_empty : Inv (empty : Locks K) where
  bound _ h := absurd h List.not_mem_nil
  uniq _ h := absurd h List.not_mem_nil
  known _ h := absurd h List.not_mem_nil
  opened _ h := absurd h List.not_mem_nil
  tail_some _ _ h := by cases h
  tail_max _ _ h := by cases h
  tail_none _ _ _ h := absurd h List.not_mem_nil
  prev_ticket _ h := absurd h List.not_mem_nil
  behind _ h := absurd h List.not_mem_nil
  ahead _ h := absurd h List.not_mem_nil

theorem inv_chain [DecidableEq K] {s : Locks K} (h : Inv s) (t : Nat) (k : K) :
    Inv (chain s t k).2 where
  bound a ha := by
    rcases List.mem_cons.mp ha with rfl | ha
    · exact Nat.lt_succ_self _
    · exact Nat.lt_succ_of_lt (h.bound a ha)
  uniq a ha b hb e := by
    rcases List.mem_cons.mp ha with rfl | ha <;> rcases List.mem_cons.mp hb with rfl | hb
    · rfl
    · exact absurd e.symm (Nat.ne_of_lt (h.bound b hb))
    · exact absurd e (Nat.ne_of_lt (h.bound a ha))
    · exact h.uniq a ha b hb e
  known p hp := Nat.lt_succ_of_lt (h.known p hp)
  opened := h.opened
  tail_some k' p hp := by
    simp only [chain] at hp
    split at hp
    · rename_i hk
      cases hp; exact ⟨_, .head _, hk.symm, rfl⟩
    · obtain ⟨a, ha, e⟩ := h.tail_some k' p hp
      exact ⟨a, .tail _ ha, e⟩
  tail_max k' p hp b hb hbk := by
    simp only [chain] at hp
    split at hp
    · cases hp
      rcases List.mem_cons.mp hb with rfl | hb
      · exact Nat.le_refl _
      · exact Nat.le_of_lt (h.bound b hb)
    · rename_i hk
      rcases List.mem_cons.mp hb with rfl | hb
      · exact absurd hbk.symm hk
      · exact h.tail_max k' p hp b hb hbk
  tail_none k' hp b hb hbk := by
    simp only [chain] at hp
    split at hp
    · cases hp
    · rename_i hk
      rcases List.mem_cons.mp hb with rfl | hb
      · exact absurd hbk.symm hk
      · exact h.tail_none k' hp b hb hbk
  prev_ticket a ha q hq := by
    rcases List.mem_cons.mp ha with rfl | ha
    · obtain ⟨b, hb, e⟩ := h.tail_some k q hq
      exact ⟨b, .tail _ hb, e⟩
    · obtain ⟨b, hb, e⟩ := h.prev_ticket a ha q hq
      exact ⟨b, .tail _ hb, e⟩
  behind a ha b hb hk hlt := by
    rcases List.mem_cons.mp ha with rfl | ha <;> rcases List.mem_cons.mp hb with rfl | hb
    · exact absurd hlt (Nat.lt_irrefl _)
    · -- the new ticket: everything older on the key is settled or not past the tail it found
      cases ht : s.tail k with
      | none => exact .inl (h.tail_none k ht b hb hk)
      | some q => exact .inr ⟨q, rfl, h.tail_max k q ht b hb hk⟩
    · exact absurd (h.bound a ha) (Nat.not_lt_of_lt hlt)
    · exact h.behind a ha b hb hk hlt
  ahead a ha b hb hk hlt hin := by
    rcases List.mem_cons.mp ha with rfl | ha
    · exact absurd (h.known _ hin) (Nat.lt_irrefl _)
    · rcases List.mem_cons.mp hb with rfl | hb
      · exact absurd (h.bound a ha) (Nat.not_lt_of_lt hlt)
      · exact h.ahead a ha b hb hk hlt hin

/-- Everything chained earlier on the key has settled once the awaited
promise has. -/
theorem Inv.settled_of_prev {s : Locks K} (h : Inv s) {a b : Ticket K} (ha : a ∈ s.tickets)
    (hb : b ∈ s.tickets) (hk : b.key = a.key) (hlt : b.pid < a.pid)
    (hp : ∀ q, a.prev = some q → q ∈ s.settled) : b.pid ∈ s.settled := by
  obtain hset | ⟨q, hq, hle⟩ := h.behind a ha b hb hk hlt
  · exact hset
  · obtain ⟨c, hc, hck, rfl⟩ := h.prev_ticket a ha q hq
    rcases Nat.lt_or_eq_of_le hle with hlt' | heq
    · exact h.ahead c hc b hb (hk.trans hck.symm) hlt' (h.opened _ (hp _ hq))
    · rw [heq]; exact hp _ hq

theorem enter_cases {s s' : Locks K} {prev : Option Nat} {pid : Nat}
    (h : enter s prev pid = some s') :
    s' = { s with entered := pid :: s.entered } ∧ ∀ q, prev = some q → q ∈ s.settled := by
  unfold enter at h
  split at h
  · cases h; exact ⟨rfl, fun q hq => by cases hq⟩
  · rename_i q
    split at h
    · cases h; exact ⟨rfl, fun q' hq' => by cases hq'; assumption⟩
    · cases h

theorem enter_of {s : Locks K} {prev : Option Nat} {pid : Nat}
    (h : ∀ q, prev = some q → q ∈ s.settled) :
    enter s prev pid = some { s with entered := pid :: s.entered } := by
  cases prev with
  | none => rfl
  | some q => exact if_pos (h q rfl)

theorem inv_enter {s s' : Locks K} (h : Inv s) {a : Ticket K} (ha : a ∈ s.tickets)
    (he : enter s a.prev a.pid = some s') : Inv s' := by
  obtain ⟨rfl, hp⟩ := enter_cases he
  exact { h with
    known := fun p hp' => by
      rcases List.mem_cons.mp hp' with rfl | hp'
      · exact h.bound a ha
      · exact h.known p hp'
    opened := fun p hp' => .tail _ (h.opened p hp')
    ahead := fun c hc b hb hk hlt hin => by
      rcases List.mem_cons.mp hin with hin | hin
      · obtain rfl := h.uniq c hc a ha hin
        exact h.settled_of_prev hc hb hk hlt hp
      · exact h.ahead c hc b hb hk hlt hin }

theorem inv_settle {s : Locks K} (h : Inv s) {pid : Nat} (hin : pid ∈ s.entered) :
    Inv (settle s pid) where
  bound := h.bound
  uniq := h.uniq
  known := h.known
  opened p hp := by
    rcases List.mem_cons.mp hp with rfl | hp
    · exact hin
    · exact h.opened p hp
  tail_some := h.tail_some
  tail_max := h.tail_max
  tail_none k hp b hb hbk := .tail _ (h.tail_none k hp b hb hbk)
  prev_ticket := h.prev_ticket
  behind c hc b hb hk hlt := (h.behind c hc b hb hk hlt).imp (.tail _) id
  ahead c hc b hb hk hlt hin' := .tail _ (h.ahead c hc b hb hk hlt hin')

theorem inv_drop [DecidableEq K] {s : Locks K} (h : Inv s) {a : Ticket K} (ha : a ∈ s.tickets)
    (hset : a.pid ∈ s.settled) : Inv (drop s a.key a.pid) where
  bound := h.bound
  uniq := h.uniq
  known := h.known
  opened := h.opened
  tail_some k p hp := by
    simp only [drop] at hp
    split at hp
    · cases hp
    · exact h.tail_some k p hp
  tail_max k p hp := by
    simp only [drop] at hp
    split at hp
    · cases hp
    · exact h.tail_max k p hp
  tail_none k hp b hb hbk := by
    simp only [drop] at hp
    split at hp
    · rename_i hk
      obtain ⟨rfl, ht⟩ := hk
      -- the entry is dropped: the ticket was the newest of its key
      rcases Nat.lt_or_eq_of_le (h.tail_max _ _ ht b hb hbk) with hlt | heq
      · exact h.ahead a ha b hb hbk hlt (h.opened _ hset)
      · rw [heq]; exact hset
    · exact h.tail_none k hp b hb hbk
  prev_ticket := h.prev_ticket
  behind := h.behind
  ahead := h.ahead

theorem inv_release [DecidableEq K] {s : Locks K} (h : Inv s) {a : Ticket K} (ha : a ∈ s.tickets)
    (hin : a.pid ∈ s.entered) : Inv (release s a.key a.pid) := by
  have hsettled : a.pid ∈ (settle s a.pid).settled := List.mem_cons_self
  exact inv_drop (inv_settle h hin) ha hsettled

/-- **Mutual exclusion.** Two open tickets of one key are the same. -/
theorem Inv.exclusive {s : Locks K} (h : Inv s) {a b : Ticket K} (ha : Holds s a)
    (hb : Holds s b) (hk : a.key = b.key) : a = b := by
  obtain ⟨ha, hain, hanot⟩ := ha
  obtain ⟨hb, hbin, hbnot⟩ := hb
  rcases Nat.lt_trichotomy a.pid b.pid with hlt | heq | hgt
  · exact absurd (h.ahead b hb a ha hk hlt hbin) hanot
  · exact h.uniq a ha b hb heq
  · exact absurd (h.ahead a ha b hb hk.symm hgt hain) hbnot

/-! ## Who is next -/

/-- What a ticket that has entered waited for has settled. -/
theorem Inv.awaited {s : Locks K} (h : Inv s) {a : Ticket K} (ha : a ∈ s.tickets)
    (hin : a.pid ∈ s.entered) {q : Nat} (hq : a.prev = some q) (hlt : q < a.pid) :
    q ∈ s.settled := by
  obtain ⟨b, hb, hk, rfl⟩ := h.prev_ticket a ha q hq
  exact h.ahead a ha b hb hk hlt hin

/-- While a ticket of a key has not settled, one of them waits for nothing. -/
theorem Inv.front {s : Locks K} (h : Inv s)
    (hprev : ∀ a ∈ s.tickets, ∀ q, a.prev = some q → q < a.pid) {a : Ticket K} (ha : a ∈ s.tickets)
    (hopen : a.pid ∉ s.settled) :
    ∃ b ∈ s.tickets, b.key = a.key ∧ b.pid ∉ s.settled ∧ ∀ q, b.prev = some q → q ∈ s.settled := by
  induction hn : a.pid using Nat.strongRecOn generalizing a with
  | ind n ih =>
    by_cases hready : ∀ q, a.prev = some q → q ∈ s.settled
    · exact ⟨a, ha, rfl, hopen, hready⟩
    · simp only [not_forall] at hready
      obtain ⟨q, hq, hwaits⟩ := hready
      obtain ⟨b, hb, hk, rfl⟩ := h.prev_ticket a ha q hq
      obtain ⟨c, hc, hkc, hrest⟩ := ih b.pid (hn ▸ hprev a ha _ hq) hb hwaits rfl
      exact ⟨c, hc, hkc.trans hk, hrest⟩

/-! ## The order of a key -/

variable [DecidableEq K]

/-- The tickets of a key, newest first. -/
def pids (s : Locks K) (k : K) : List Nat := (s.tickets.filter fun a => a.key = k).map Ticket.pid

/-- The tickets of a key that have entered, newest first. -/
def inside (s : Locks K) (k : K) : List Nat := s.entered.filter fun p => p ∈ pids s k

structure Line (s : Locks K) : Prop where
  numbered : s.tickets.map Ticket.pid = (List.range s.next).reverse
  prev_lt : ∀ a ∈ s.tickets, ∀ q, a.prev = some q → q < a.pid
  /-- who has entered are the oldest of a key -/
  order : ∀ k, inside s k <:+ pids s k

theorem mem_pids {s : Locks K} {k : K} {p : Nat} :
    p ∈ pids s k ↔ ∃ a ∈ s.tickets, a.key = k ∧ a.pid = p := by
  simp [pids, and_assoc]

theorem line_empty : Line (empty : Locks K) where
  numbered := rfl
  prev_lt _ h := absurd h List.not_mem_nil
  order _ := List.suffix_refl _

theorem pids_chain (s : Locks K) (t : Nat) (k k' : K) :
    pids (chain s t k).2 k' = if k = k' then s.next :: pids s k' else pids s k' := by
  unfold pids chain
  by_cases hk : k = k'
  · simp [hk]
  · simp [hk]

theorem line_chain {s : Locks K} (h : Inv s) (hl : Line s) (t : Nat) (k : K) :
    Line (chain s t k).2 where
  numbered := by
    have hcons : (chain s t k).2.tickets.map Ticket.pid = s.next :: s.tickets.map Ticket.pid := rfl
    have hnext : (chain s t k).2.next = s.next + 1 := rfl
    rw [hcons, hnext, List.range_succ, List.reverse_append, hl.numbered]
    rfl
  prev_lt a ha q hq := by
    rcases List.mem_cons.mp ha with rfl | ha
    · obtain ⟨b, hb, -, rfl⟩ := h.tail_some k q hq
      exact h.bound b hb
    · exact hl.prev_lt a ha q hq
  order k' := by
    have hold : inside (chain s t k).2 k' = inside s k' := by
      refine List.filter_congr fun p hp => ?_
      have hlt := h.known p hp
      rw [pids_chain]
      split
      · simp
        omega
      · rfl
    rw [hold, pids_chain]
    split
    · exact (hl.order k').trans (List.suffix_cons _ _)
    · exact hl.order k'

theorem mem_inside {s : Locks K} {k : K} {p : Nat} :
    p ∈ inside s k ↔ p ∈ s.entered ∧ p ∈ pids s k := by
  simp [inside]

/-- The numbers of a key go down. -/
theorem Line.sorted {s : Locks K} (h : Line s) (k : K) : (pids s k).Pairwise (· > ·) := by
  have hall : (s.tickets.map Ticket.pid).Pairwise (· > ·) := by
    rw [h.numbered, List.pairwise_reverse]
    exact List.pairwise_lt_range
  exact hall.sublist (List.filter_sublist.map _)

theorem inside_enter (s : Locks K) (pid : Nat) (k : K) :
    inside { s with entered := pid :: s.entered } k =
      if pid ∈ pids s k then pid :: inside s k else inside s k := by
  have hcons : inside { s with entered := pid :: s.entered } k = (pid :: s.entered).filter fun p =>
      p ∈ pids s k := rfl
  rw [hcons, List.filter_cons]
  simp only [decide_eq_true_eq]
  rfl

theorem line_enter {s s' : Locks K} (h : Inv s) (hl : Line s) {a : Ticket K} (ha : a ∈ s.tickets)
    (hout : a.pid ∉ s.entered) (he : enter s a.prev a.pid = some s') : Line s' := by
  obtain ⟨rfl, hready⟩ := enter_cases he
  refine ⟨hl.numbered, hl.prev_lt, fun k => ?_⟩
  have hsame : pids { s with entered := a.pid :: s.entered } k = pids s k := rfl
  rw [inside_enter, hsame]
  split
  · rename_i hmem
    obtain ⟨newer, hsplit⟩ := hl.order k
    have hsorted := hl.sorted k
    rw [← hsplit] at hmem hsorted
    -- the ticket is the oldest of those that have not entered
    have hnewer : a.pid ∈ newer := by
      rcases List.mem_append.mp hmem with hnew | hin
      · exact hnew
      · exact absurd (mem_inside.mp hin).1 hout
    obtain ⟨before, after, rfl⟩ := List.append_of_mem hnewer
    have hnone : after = [] := by
      refine List.eq_nil_iff_forall_not_mem.mpr fun p hp => ?_
      have hpids : ∀ q ∈ (before ++ a.pid :: after) ++ inside s k, q ∈ pids s k :=
        fun q hq => hsplit ▸ hq
      obtain ⟨b, hb, hk, rfl⟩ := mem_pids.mp (hpids p (by simp [hp]))
      obtain ⟨c, hc, hck, hcp⟩ := mem_pids.mp (hpids a.pid (by simp))
      obtain rfl := h.uniq c hc a ha hcp
      obtain ⟨hleft, -, hright⟩ := List.pairwise_append.mp hsorted
      have hlt : b.pid < c.pid := by
        obtain ⟨-, hcons, -⟩ := List.pairwise_append.mp hleft
        exact (List.pairwise_cons.mp hcons).1 _ hp
      have hsettled := h.settled_of_prev hc hb (hk.trans hck.symm) hlt hready
      have hin : b.pid ∈ inside s k := mem_inside.mpr ⟨h.opened _ hsettled, hpids _ (by simp [hp])⟩
      exact absurd (hright b.pid (by simp [hp]) b.pid hin) (Nat.lt_irrefl _)
    subst hnone
    refine ⟨before, ?_⟩
    rw [← hsplit, List.append_assoc]
    rfl
  · exact hl.order k

theorem line_settle {s : Locks K} (hl : Line s) (pid : Nat) : Line (settle s pid) :=
  ⟨hl.numbered, hl.prev_lt, hl.order⟩

theorem line_drop {s : Locks K} (hl : Line s) (k : K) (pid : Nat) : Line (drop s k pid) :=
  ⟨hl.numbered, hl.prev_lt, hl.order⟩

end RezSdk.PromiseLock
