import RezSdk.L4Runs.UplinkMoves

/-!
# What the pool's routines join

A caller joins a connect attempt that is in flight (`#connectPromise`), and an
upkeep of the spares that the pool knows of (`#spareEnsurePromise`; clearing the
connections forgets it). So in every run no two calls are in a connect attempt
(`OneAttempt`), and no two in the upkeep with the pool's own promise
(`OneUpkeep`).
-/
namespace RezSdk.L4.UplinkGuards

open RezSdk.L1 RezSdk.L3.Uplinks RezSdk.L4.UplinkCalls RezSdk.L4.UplinkMoves

/-! ## One connect attempt at a time -/

structure OneAttempt (m : Core) (P : Nat → Option Place) : Prop where
  inConnect : ∀ t w, P t = some w → w.connecting ≠ none → w.inConnect = true
  promise : ∀ t w, P t = some w → w.inConnect = true → m.connectPromise ≠ none
  one : ∀ t t' w w', P t = some w → P t' = some w' → w.inConnect = true → w'.inConnect = true →
    t = t'

section

variable {cfg : Config} {i : Input} {s : UplinkPool} {m m' : Core} {P P' : Nat → Option Place}
  {t : Nat} {w w' : Place}

/-- The call goes on, in no other connect attempt than before. -/
theorem OneAttempt.same (h : OneAttempt m P) (hturn : Turn P P' t w w')
    (hconnecting : w'.connecting = w.connecting ∨ w'.connecting = none)
    (hin : w'.inConnect = w.inConnect) (hpromise : m'.connectPromise = m.connectPromise) :
    OneAttempt m' P' := by
  have hback : ∀ u v, P' u = some v → v.inConnect = true → ∃ v₀, P u = some v₀ ∧
      v₀.inConnect = true := by
    intro u v hv hi
    obtain ⟨rfl, rfl⟩ | ⟨-, hv⟩ := hturn.cases hv
    · exact ⟨w, hturn.before, hin.symm.trans hi⟩
    · exact ⟨v, hv, hi⟩
  refine ⟨fun u v hv hne => ?_, fun u v hv hi => ?_, fun u u' v v' hv hv' hi hi' => ?_⟩
  · obtain ⟨rfl, rfl⟩ | ⟨-, hv⟩ := hturn.cases hv
    · rcases hconnecting with hsame | hnone
      · exact hin.trans (h.inConnect u w hturn.before (hsame ▸ hne))
      · exact absurd hnone hne
    · exact h.inConnect u v hv hne
  · obtain ⟨v₀, hv₀, hi₀⟩ := hback u v hv hi
    rw [hpromise]
    exact h.promise u v₀ hv₀ hi₀
  · obtain ⟨v₀, hv₀, hi₀⟩ := hback u v hv hi
    obtain ⟨v₁, hv₁, hi₁⟩ := hback u' v' hv' hi'
    exact h.one u u' v₀ v₁ hv₀ hv₁ hi₀ hi₁

theorem OneAttempt.joined (h : OneAttempt m P) (hj : Joined P P') : OneAttempt m P' := by
  have hback : ∀ u v, P' u = some v → v.inConnect = true → P u = some v := by
    intro u v hv hi
    rcases hj.fresh u v hv with hv | rfl
    · exact hv
    · cases hi
  refine ⟨fun u v hv hne => ?_, fun u v hv hi => h.promise u v (hback u v hv hi) hi,
    fun u u' v v' hv hv' hi hi' => h.one u u' v v' (hback u v hv hi) (hback u' v' hv' hi') hi hi'⟩
  rcases hj.fresh u v hv with hv | rfl
  · exact h.inConnect u v hv hne
  · exact absurd rfl hne

theorem promise_of_begins {l : Stretch} (h : begins s l = true) : s.connectPromise = none := by
  cases l with
  | connect => exact Option.isNone_iff_eq_none.mp h
  | clientPool => exact Option.isNone_iff_eq_none.mp h
  | clientConnect =>
    have h : (!s.client.connected && s.client.connectPromise.isNone && s.client.started &&
        s.connectPromise.isNone) = true := h
    rw [Bool.and_eq_true] at h
    exact Option.isNone_iff_eq_none.mp h.2
  | connectNow =>
    have h : (kicks s .connectNow && s.attemptReconnectPromise.isNone && s.connectPromise.isNone) =
        true := h
    rw [Bool.and_eq_true] at h
    exact Option.isNone_iff_eq_none.mp h.2
  | timer =>
    have h : (kicks s .timer && s.attemptReconnectPromise.isNone && s.connectPromise.isNone) =
        true := h
    rw [Bool.and_eq_true] at h
    exact Option.isNone_iff_eq_none.mp h.2
  | _ => cases h

theorem clear_promise (m : Core) : m.clear.connectPromise = m.connectPromise := by
  unfold Core.clear
  cases m.entries.head? <;> rfl

theorem hangUp_promise (m : Core) (tr : Option Nat) :
    (m.hangUp tr).connectPromise = m.connectPromise := by
  cases tr <;> rfl

theorem oneAttempt_move {l : Stretch} (h : Move cfg i s w l m' w') (hl : Legal cfg w l)
    (hs : OneAttempt (.of s) P) (hturn : Turn P P' t w w') : OneAttempt m' P' := by
  cases h with
  | stay _ _ keeps => exact hs.same hturn (.inl keeps.connecting) keeps.inConnect rfl
  | disarm _ _ kick why keeps => exact hs.same hturn (.inl keeps.connecting) keeps.inConnect rfl
  | enter _ _ p starts begun =>
    -- no call is in a connect attempt before
    have hnone : ∀ u v, P u = some v → v.inConnect = false := by
      intro u v hv
      by_contra hi
      exact hs.promise u v hv (Bool.not_eq_false _ ▸ hi) (promise_of_begins starts)
    have hmine : ∀ u v, P' u = some v → v.inConnect = true → u = t := by
      intro u v hv hi
      obtain ⟨rfl, -⟩ | ⟨-, hv⟩ := hturn.cases hv
      · rfl
      · cases (hnone u v hv).symm.trans hi
    refine ⟨fun u v hv hne => ?_, fun u v hv hi => ?_,
      fun u u' v v' hv hv' hi hi' => (hmine u v hv hi).trans (hmine u' v' hv' hi').symm⟩
    · obtain ⟨rfl, rfl⟩ | ⟨-, hv⟩ := hturn.cases hv
      · exact begun.inConnect
      · exact hs.inConnect u v hv hne
    · rw [clear_promise]
      nofun
  | connectFinally =>
    have hnone : ∀ u v, P' u = some v → v.inConnect = false := by
      intro u v hv
      obtain ⟨rfl, rfl⟩ | ⟨hne, hv⟩ := hturn.cases hv
      · rfl
      · by_contra hi
        exact hne (hs.one t u w v hturn.before hv hl.1 (Bool.not_eq_false _ ▸ hi))
    refine ⟨fun u v hv hne => ?_, fun u v hv hi => ?_, fun u u' v v' hv hv' hi hi' => ?_⟩
    · obtain ⟨rfl, rfl⟩ | ⟨-, hv⟩ := hturn.cases hv
      · exact absurd hl.2 hne
      · exact hs.inConnect u v hv hne
    · cases (hnone u v hv).symm.trans hi
    · cases (hnone u v hv).symm.trans hi
  | close _ leaving closing => exact hs.same hturn (.inl rfl) rfl (clear_promise _)
  | restoreClear => exact hs.same hturn (.inl rfl) rfl (clear_promise _)
  | hangUp tr => exact hs.same hturn (.inl rfl) rfl (hangUp_promise _ tr)
  | activate url => exact hs.same hturn (.inr rfl) rfl rfl
  | connectEnd err down soft => exact hs.same hturn (.inr rfl) rfl rfl
  | refused err down code => exact hs.same hturn (.inr rfl) rfl rfl
  | connected err up active => exact hs.same hturn (.inr rfl) rfl rfl
  | retry _ _ failed =>
    rcases failed with ⟨-, rfl⟩ | ⟨-, rfl⟩
    · exact hs.same hturn (.inl rfl) rfl rfl
    · exact hs.same hturn (.inl rfl) rfl rfl
  | offline _ _ lost =>
    rcases lost with ⟨-, rfl⟩ | ⟨-, rfl⟩
    · exact hs.same hturn (.inl rfl) rfl rfl
    · exact hs.same hturn (.inl rfl) rfl rfl
  | _ => exact hs.same hturn (.inl rfl) rfl rfl

theorem OneAttempt.answer {o : Await} {r : o.Ans} (hmay : (monitor cfg).may w (.await o))
    (hs : OneAttempt (.of s) P) (hturn : Turn P P' t w ((monitor cfg).next w ⟨.await o, r⟩)) :
    OneAttempt (.of (outsideWorld.effect s o r)) P' := by
  have hans := answered r hmay
  rw [of_effect]
  exact hs.same hturn (.inl hans.connecting) hans.inConnect rfl

end

/-! ## One upkeep of the spares for each promise -/

structure OneUpkeep (s : UplinkPool) (P : Nat → Option Place) : Prop where
  /-- the promise was made before -/
  made : ∀ t w p, P t = some w → w.sparing = some p → p < s.promises.length
  one : ∀ t t' w w' p, P t = some w → P t' = some w' → w.sparing = some p → w'.sparing = some p →
    t = t'

section

variable {cfg : Config} {i : Input} {s s' : UplinkPool} {P P' : Nat → Option Place} {t : Nat}
  {w w' : Place}

theorem grows_promise (s : UplinkPool) : s.promises.length ≤ s.promise.2.promises.length := by
  change s.promises.length ≤ (s.promises ++ [none]).length
  rw [List.length_append]
  exact Nat.le_add_right ..

theorem grows_connectEnter (s : UplinkPool) :
    s.promises.length ≤ s.connectEnter.2.promises.length := by
  unfold UplinkPool.connectEnter
  split
  · exact Nat.le_refl _
  · exact grows_promise s

theorem grows_attemptEnter (s : UplinkPool) :
    s.promises.length ≤ s.attemptEnter.2.promises.length := by
  unfold UplinkPool.attemptEnter
  split
  · exact Nat.le_refl _
  · refine Nat.le_trans (grows_promise s) ?_
    exact grows_connectEnter { s.promise.2 with attemptReconnectPromise := some s.promise.1 }

theorem grows_settle (s : UplinkPool) (p : Nat) (r : Except Failure Bool) :
    s.promises.length ≤ (s.settle p r).promises.length := by
  unfold UplinkPool.settle
  rw [List.length_set]

theorem grows_spareEnter (s : UplinkPool) :
    s.promises.length ≤ (s.spareEnter cfg).2.promises.length := by
  unfold UplinkPool.spareEnter
  split
  · exact Nat.le_refl _
  · exact grows_promise s

theorem grows_stateEvent (s : UplinkPool) (tr : Nat) :
    s.promises.length ≤ (s.stateEvent cfg i tr).2.promises.length := by
  unfold UplinkPool.stateEvent
  split
  · exact Nat.le_refl _
  · split
    · exact Nat.le_refl _
    · dsimp only
      split
      · split
        · exact Nat.le_refl _
        · unfold UplinkPool.promoteFind
          split
          · rename_i heq
            split at heq
            · cases heq
              exact grows_promise s
            · cases heq
          · rename_i heq
            split at heq
            · cases heq
            · cases heq
              exact grows_promise s
      · split <;> exact Nat.le_refl _

theorem grows_clientConnect (s : UplinkPool) :
    s.promises.length ≤ s.clientConnect.2.promises.length := by
  unfold UplinkPool.clientConnect
  split
  · exact Nat.le_refl _
  · split
    · exact Nat.le_refl _
    · dsimp only
      split
      · refine Nat.le_trans (grows_promise s) ?_
        exact grows_connectEnter { s.promise.2 with
          client := { s.promise.2.client with connectPromise := some s.promise.1 } }
      · exact grows_promise s

/-- No promise is forgotten. -/
theorem grows_apply (l : Stretch) : s.promises.length ≤ (l.apply cfg i s).promises.length := by
  cases l with
  | connect => exact grows_connectEnter s
  | clientPool => exact grows_connectEnter s
  | connectNow =>
    change s.promises.length ≤ s.connectNow.2.promises.length
    unfold UplinkPool.connectNow
    repeat' split
    · exact Nat.le_refl _
    · exact Nat.le_refl _
    · exact Nat.le_refl _
    · exact grows_attemptEnter { s with reconnectTimer := none }
  | timer =>
    change s.promises.length ≤ s.timer.2.promises.length
    unfold UplinkPool.timer
    split
    · exact Nat.le_refl _
    · dsimp only
      split
      · exact Nat.le_refl _
      · exact grows_attemptEnter { s with reconnectTimer := none }
  | connectSettle p r => exact grows_settle s p r
  | spareSettle p => exact grows_settle s p (.ok true)
  | attemptSettle a r => exact grows_settle s a r
  | promoteEnd p b => exact grows_settle { s with promotePromise := none } p (.ok b)
  | spareEnter => exact grows_spareEnter s
  | spareFinally =>
    change s.promises.length ≤ s.spareFinally.2.promises.length
    unfold UplinkPool.spareFinally
    dsimp only
    split <;> exact Nat.le_refl _
  | stateEvent tr => exact grows_stateEvent s tr
  | clientConnect => exact grows_clientConnect s
  | clientConnected p r => exact grows_settle { s with client := _ } p r
  | clientStopped p => exact grows_settle { s with client := _ } p (.ok true)
  | clientDisconnect =>
    change s.promises.length ≤ s.clientDisconnect.2.promises.length
    unfold UplinkPool.clientDisconnect
    split <;> exact Nat.le_refl _
  | clientStop =>
    change s.promises.length ≤ s.clientStop.2.promises.length
    unfold UplinkPool.clientStop
    split
    · exact Nat.le_refl _
    · exact grows_promise s
  | begin url =>
    change s.promises.length ≤ (s.begin i url).2.promises.length
    unfold UplinkPool.begin
    repeat' split
    all_goals exact Nat.le_refl _
  | connectEnd err =>
    change s.promises.length ≤ (s.connectEnd cfg err).2.promises.length
    unfold UplinkPool.connectEnd
    dsimp only
    repeat' split
    all_goals exact Nat.le_refl _
  | promoteFind =>
    change s.promises.length ≤ (s.promoteFind cfg i).2.promises.length
    unfold UplinkPool.promoteFind
    split <;> exact Nat.le_refl _
  | adopt url =>
    change s.promises.length ≤ (s.adopt url).promises.length
    unfold UplinkPool.adopt
    split <;> exact Nat.le_refl _
  | _ => exact Nat.le_refl _

theorem OneUpkeep.step (h : OneUpkeep s P) (hturn : Turn P P' t w w')
    (hgrows : s.promises.length ≤ s'.promises.length)
    (hnew : ∀ p, w'.sparing = some p →
      w.sparing = some p ∨ p = s.promises.length ∧ p < s'.promises.length) : OneUpkeep s' P' := by
  have hcases : ∀ u v p, P' u = some v → v.sparing = some p →
      (∃ v₀, P u = some v₀ ∧ v₀.sparing = some p) ∨
      u = t ∧ p = s.promises.length ∧ p < s'.promises.length := by
    intro u v p hv hp
    obtain ⟨rfl, rfl⟩ | ⟨-, hv⟩ := hturn.cases hv
    · exact (hnew p hp).imp (fun hw => ⟨w, hturn.before, hw⟩) fun h => ⟨rfl, h⟩
    · exact .inl ⟨v, hv, hp⟩
  refine ⟨fun u v p hv hp => ?_, fun u u' v v' p hv hv' hp hp' => ?_⟩
  · rcases hcases u v p hv hp with ⟨v₀, hv₀, hp₀⟩ | ⟨-, -, hlt⟩
    · exact Nat.lt_of_lt_of_le (h.made u v₀ p hv₀ hp₀) hgrows
    · exact hlt
  · rcases hcases u v p hv hp with ⟨v₀, hv₀, hp₀⟩ | ⟨rfl, heq, -⟩
    · rcases hcases u' v' p hv' hp' with ⟨v₁, hv₁, hp₁⟩ | ⟨rfl, heq, -⟩
      · exact h.one u u' v₀ v₁ p hv₀ hv₁ hp₀ hp₁
      · exact absurd (h.made u v₀ p hv₀ hp₀) (heq ▸ Nat.lt_irrefl _)
    · rcases hcases u' v' p hv' hp' with ⟨v₁, hv₁, hp₁⟩ | ⟨rfl, -, -⟩
      · exact absurd (h.made u' v₁ p hv₁ hp₁) (heq ▸ Nat.lt_irrefl _)
      · rfl

theorem OneUpkeep.joined (h : OneUpkeep s P) (hj : Joined P P') : OneUpkeep s P' := by
  have hback : ∀ u v p, P' u = some v → v.sparing = some p → P u = some v := by
    intro u v p hv hp
    rcases hj.fresh u v hv with hv | rfl
    · exact hv
    · cases hp
  exact ⟨fun u v p hv hp => h.made u v p (hback u v p hv hp) hp,
    fun u u' v v' p hv hv' hp hp' =>
      h.one u u' v v' p (hback u v p hv hp) (hback u' v' p hv' hp') hp hp'⟩

theorem OneUpkeep.apply {l : Stretch} (h : OneUpkeep s P) (hroutines : Routines s w w' l)
    (hturn : Turn P P' t w w') : OneUpkeep (l.apply cfg i s) P' := by
  refine h.step hturn (grows_apply l) fun p hp => (hroutines.sparing p hp).imp id ?_
  rintro ⟨rfl, -, hfree, rfl⟩
  refine ⟨rfl, ?_⟩
  change s.promises.length < (s.spareEnter cfg).2.promises.length
  unfold UplinkPool.spareEnter
  rw [hfree]
  change s.promises.length < (s.promises ++ [none]).length
  rw [List.length_append]
  exact Nat.lt_succ_self _

theorem OneUpkeep.answer {o : Await} {r : o.Ans} (hmay : (monitor cfg).may w (.await o))
    (h : OneUpkeep s P) (hturn : Turn P P' t w ((monitor cfg).next w ⟨.await o, r⟩)) :
    OneUpkeep (outsideWorld.effect s o r) P' := by
  have hsame : (outsideWorld.effect s o r).promises = s.promises := by
    cases o with
    | connect tr => cases r <;> rfl
    | authenticate tr => cases r <;> rfl
    | _ => rfl
  refine h.step hturn (Nat.le_of_eq (congrArg List.length hsame.symm)) fun p hp => .inl ?_
  exact (answered r hmay).routines.sparing.symm.trans hp

end

/-! ## Both, in every run -/

structure OneOfEach (s : UplinkPool) (P : Nat → Option Place) : Prop where
  attempt : OneAttempt (.of s) P
  upkeep : OneUpkeep s P

section

variable {cfg : Config} {rounds : Nat} {s s' : UplinkState} {e : UplinkEvent} {c : Call}
  {k : uplinkPool.Ans e.op → Proc uplinkPool (Except Failure Unit)}

theorem OneOfEach.init : OneOfEach .new (place cfg ⟨.new, [], []⟩) := by
  have hnone : ∀ t v, place cfg ⟨.new, [], []⟩ t ≠ some v := fun t v hv => by
    rw [place, System.view_init] at hv
    cases hv
  exact ⟨⟨fun t v hv => absurd hv (hnone t v), fun t v hv => absurd hv (hnone t v),
    fun t _ v _ hv => absurd hv (hnone t v)⟩,
    ⟨fun t v _ hv => absurd hv (hnone t v), fun t _ v _ _ hv => absurd hv (hnone t v)⟩⟩

theorem OneOfEach.spawn (h : OneOfEach s.mem (place cfg s)) (hbase : Base cfg s) (c : Call) :
    OneOfEach s.mem (place cfg (s.spawn (uplinks cfg rounds) c)) :=
  ⟨h.attempt.joined (hbase.joined c), h.upkeep.joined (hbase.joined c)⟩

theorem OneOfEach.fires (h : OneOfEach s.mem (place cfg s)) (hbase : Base cfg s)
    (hf : Pool.Fires (uplinks cfg rounds) s e c k s') : OneOfEach s'.mem (place cfg s') := by
  obtain ⟨w, hw, heff⟩ := hbase.effect hf
  cases heff with
  | stretch l i exch legal mem next move =>
    have hturn := turn_fires hf hw next
    refine ⟨oneAttempt_move move legal h.attempt hturn, ?_⟩
    rw [mem]
    exact h.upkeep.apply routines_follow hturn
  | answer o r exch allows may mem next =>
    have hturn := turn_fires hf hw next
    rw [mem]
    exact ⟨h.attempt.answer may hturn, h.upkeep.answer may hturn⟩

end

end RezSdk.L4.UplinkGuards
