/-
  NotifyHub.Plugin.Collections — where the interactions of a snapshot response come from.

  A collection proceeds in three ways (`Operation.Next`): a list call settles and the
  adapter still waits, a list call settles and the adapter returns, the timer fires.
  - `accounted_next`: its result is the adapter's reading of both lists, or empty because
    it failed; once there is a result it stays.
  - `step_sends`: a snapshot response carries the result of its collection, whatever else
    waits for it.
-/

import NotifyHub.Plugin.ControlChannel

namespace NotifyHub.Plugin

open Control

variable {O : Options}

namespace Operation

/-- The collection failed: its timer fired, or a list call threw or was not readable. -/
def failed (op : Operation) : Bool := op.timedOut || op.question.failed || op.permission.failed

/-- What a collection may have resolved to. -/
def Outcome (O : Options) (op : Operation) (l : List PendingInteraction) : Prop :=
  (op.failed = false ∧ ∃ titleForSession nowIso firstObserved qs ps, op.question.payload = some qs ∧
      op.permission.payload = some ps ∧
      l = (stampOccurredAt nowIso firstObserved (interactions titleForSession O.source qs ps)).2) ∨
    (op.failed = true ∧ l = [])

end Operation

variable (O) in
/-- One thing that happens to a collection; `P` is what is known of a call that settles. -/
inductive Operation.Next (P : Operation → ListCall → Prop) (op : Operation) : Operation → Prop
  | waits (k : CommandKind) (call : ListCall) (hw : op.call k = .waiting) (hp : P op call) :
      Next P op (op.setCall k call)
  | returns (k : CommandKind) (call : ListCall) (hw : op.call k = .waiting) (hp : P op call)
      {titleForSession : JsString → Option JsString} {nowIso : JsString}
      {firstObserved firstObserved' : OMap JsString JsString}
      {l : List PendingInteraction}
      (hl : list titleForSession O.source nowIso firstObserved (op.setCall k call).question
      (op.setCall k call).permission =
        some (firstObserved', l)) : Next P op ((op.setCall k call).settle l)
  | timeout (hr : op.result = none) : Next P op { op with timedOut := true, result := some [] }

variable (O) in
/-- What one event does to the collections. -/
inductive Collects (P : Operation → ListCall → Prop) (ops : List Operation) : List Operation → Prop
  | same : Collects P ops ops
  | begun (since : List JsString) : Collects P ops (ops ++ [Channel.runCollection O since])
  | next {n : Nat} {op op' : Operation} (hn : ops[n]? = some op) (h : Operation.Next O P op op') :
      Collects P ops (ops.set n op')

/-! ## A result stays -/

theorem next_keeps {P : Operation → ListCall → Prop} {op op' : Operation} (h : Operation.Next O P op op') :
    op'.since = op.since ∧ ∀ l, op.result = some l → op'.result = some l := by
  cases h with
  | waits k call hw hp => exact ⟨rfl, fun _ hl => hl⟩
  | returns k call hw hp hl =>
    refine ⟨rfl, fun l h => ?_⟩
    show (op.result <|> some _) = some l
    rw [h]; rfl
  | timeout hr => exact ⟨rfl, fun l h => by rw [hr] at h; cases h⟩

theorem collects_keeps {P : Operation → ListCall → Prop} {ops ops' : List Operation} (h : Collects O P ops ops')
    {n : Nat} {op : Operation} {l : List PendingInteraction} (hn : ops[n]? = some op) (hl : op.result = some l) :
    ∃ op', ops'[n]? = some op' ∧ op'.result = some l ∧ op'.since = op.since := by
  have hlt : n < ops.length := (List.getElem?_eq_some_iff.mp hn).1
  cases h with
  | same => exact ⟨op, hn, hl, rfl⟩
  | begun since => exact ⟨op, by rw [List.getElem?_append_left hlt]; exact hn, hl, rfl⟩
  | next hm h =>
    rename_i m op₁ op₂
    by_cases he : m = n
    · subst he
      obtain rfl : op₁ = op := Option.some.inj (hm.symm.trans hn)
      exact ⟨op₂, by rw [List.getElem?_set_self hlt], (next_keeps h).2 l hl, (next_keeps h).1⟩
    · exact ⟨op, by rw [List.getElem?_set_ne he]; exact hn, hl, rfl⟩

/-- What holds of a new collection and of what a collection becomes holds of all. -/
theorem collects_forall {P : Operation → ListCall → Prop} {Q : Operation → Prop} {ops ops' : List Operation}
    (h : Collects O P ops ops') (hnew : ∀ since, Q (Channel.runCollection O since))
    (hnext : ∀ op op', Q op → Operation.Next O P op op' → Q op') (hq : ∀ op ∈ ops, Q op) : ∀ op ∈ ops', Q op := by
  cases h with
  | same => exact hq
  | begun since =>
    intro op hop
    rcases List.mem_append.mp hop with hop | hop
    · exact hq op hop
    · rw [List.mem_singleton.mp hop]; exact hnew since
  | next hn h =>
    intro op hop
    rcases List.mem_or_eq_of_mem_set hop with hop | rfl
    · exact hq op hop
    · exact hnext _ _ (hq _ (List.mem_of_getElem? hn)) h

/-! ## What a result is -/

theorem call_failed_of_payload {call : ListCall} {rs : List Json} (h : call.payload = some rs) :
    call.failed = false := by
  cases call with
  | resolved response => simp only [ListCall.payload] at h; simp [ListCall.failed, h]
  | _ => cases h

theorem setCall_failed {op : Operation} {k : CommandKind} {call : ListCall} (hw : op.call k = .waiting)
    (h : op.failed = true) : (op.setCall k call).failed = true := by
  cases k <;> simp only [Operation.call] at hw <;> simp_all [Operation.failed, Operation.setCall, ListCall.failed]
  tauto

/-- A collection has a result once its timer fired, and every result accounts for what happened. -/
structure Accounted (O : Options) (op : Operation) : Prop where
  timed : op.timedOut = true → op.result.isSome = true
  outcome : ∀ l, op.result = some l → op.Outcome O l

theorem accounted_new (since : List JsString) : Accounted O (Channel.runCollection O since) := by
  unfold Channel.runCollection
  split
  · exact ⟨nofun, nofun⟩
  · exact ⟨nofun, fun l hl => by cases hl; exact Or.inr ⟨rfl, rfl⟩⟩

/-- Settling one more call changes nothing about a result that is there. -/
theorem outcome_setCall {op : Operation} {k : CommandKind} {call : ListCall} {l : List PendingInteraction}
    (hw : op.call k = .waiting) (h : op.Outcome O l) : (op.setCall k call).Outcome O l := by
  rcases h with ⟨-, _, _, _, qs, ps, hq, hp, -⟩ | ⟨hf, hl⟩
  · cases k with
    | question => rw [show op.question = .waiting from hw] at hq; cases hq
    | permission => rw [show op.permission = .waiting from hw] at hp; cases hp
  · exact Or.inr ⟨setCall_failed hw hf, hl⟩

theorem accounted_next {P : Operation → ListCall → Prop} {op op' : Operation} (hi : Accounted O op)
    (h : Operation.Next O P op op') : Accounted O op' := by
  cases h with
  | waits k call hw hp => exact ⟨hi.timed, fun l hl => outcome_setCall hw (hi.outcome l hl)⟩
  | timeout hr => exact ⟨fun _ => rfl, fun l hl => by cases hl; exact Or.inr ⟨rfl, rfl⟩⟩
  | returns k call hw hp hlist =>
    rename_i titles nowIso firstObserved firstObserved' l'
    cases hr : op.result with
    | some l₀ =>
      have hres : ((op.setCall k call).settle l').result = some l₀ := by
        show (op.result <|> some l') = some l₀
        rw [hr]; rfl
      refine ⟨fun _ => by rw [hres]; rfl, fun l hl => ?_⟩
      rw [hres] at hl
      cases hl
      exact outcome_setCall hw (hi.outcome _ hr)
    | none =>
      have hres : ((op.setCall k call).settle l').result = some l' := by
        show (op.result <|> some l') = some l'
        rw [hr]; rfl
      refine ⟨fun _ => by rw [hres]; rfl, fun l hl => ?_⟩
      rw [hres] at hl
      cases hl
      have htime : op.timedOut = false := by
        by_contra ht
        have := hi.timed (Bool.not_eq_false _ ▸ ht)
        rw [hr] at this
        cases this
      rcases list_eq_some hlist with ⟨qs, ps, hq, hp, rfl⟩ | ⟨hfail, rfl⟩
      · refine Or.inl ⟨?_, titles, nowIso, firstObserved, qs, ps, hq, hp, rfl⟩
        show (op.timedOut || (op.setCall k call).question.failed || (op.setCall k call).permission.failed) = false
        rw [htime, call_failed_of_payload hq, call_failed_of_payload hp]; rfl
      · refine Or.inr ⟨?_, rfl⟩
        show (op.timedOut || (op.setCall k call).question.failed || (op.setCall k call).permission.failed) = true
        rcases hfail with hfail | hfail <;> simp [hfail]

/-! ## What the events do -/

theorem onServerFrame_collects (P : Operation → ListCall → Prop) (since : List JsString) (ch : Channel) (c : ConnId)
    (m : ServerMessage) : Collects O P ch.operations (ch.onServerFrame O since c m).operations := by
  unfold Channel.onServerFrame
  split
  · exact .same
  · split <;> try split
    all_goals first | exact .same | skip
    unfold Channel.answerSnapshot Channel.collectInteractions
    cases ch.collectionInFlight with
    | some n => exact .same
    | none => exact .begun since

theorem onServerFrame_socket (since : List JsString) (ch : Channel) (c : ConnId) (m : ServerMessage) :
    (ch.onServerFrame O since c m).socket = ch.socket := by
  unfold Channel.onServerFrame
  split
  · rfl
  · split <;> try split
    all_goals first | rfl | skip
    unfold Channel.answerSnapshot Channel.collectInteractions
    cases ch.collectionInFlight <;> rfl

theorem listSettled_collects {P : Operation → ListCall → Prop} {ch : Channel} {n : Nat} {k : CommandKind}
    {response : Option (Option Json)} (titleForSession : JsString → Option JsString) (nowIso : JsString)
    (hP : ∀ op, ch.operations[n]? = some op → P op (settledCall response)) :
    Collects O P ch.operations (ch.listSettled O n k response titleForSession nowIso).operations := by
  unfold Channel.listSettled
  cases hn : ch.operations[n]? with
  | none => exact .same
  | some op =>
    dsimp only
    cases hw : op.call k with
    | waiting =>
      dsimp only
      cases hl : list titleForSession O.source nowIso ch.firstObserved (op.setCall k (settledCall response)).question
          (op.setCall k (settledCall response)).permission with
      | none => exact .next hn (.waits k _ hw (hP op hn))
      | some r => exact .next hn (.returns k _ hw (hP op hn) hl)
    | _ => exact .same

theorem step_collects {P : Operation → ListCall → Prop} {ch : Channel} {e : Event}
    (hP : ∀ n k response titles nowIso op, e = .listSettled n k response titles nowIso → ch.operations[n]? = some op →
      P op (settledCall response)) : Collects O P ch.operations (step O ch e).1.operations := by
  cases e with
  | opened c openCodeVersion webUiAvailable thrown =>
    simp only [step, Channel.opened]
    repeat' split
    all_goals first | exact .same | skip
    unfold Channel.drop
    split <;> exact .same
  | closed c code => simp only [step, Channel.closed, Channel.drop]; repeat' split
                     all_goals exact .same
  | error c => simp only [step, Channel.drop]; split <;> exact .same
  | listSettled n k response titles nowIso =>
    exact listSettled_collects titles nowIso fun op => hP n k response titles nowIso op rfl
  | collectionTimeout n =>
    simp only [step, Channel.collectionTimeout]
    cases hn : ch.operations[n]? with
    | none => exact .same
    | some op =>
      dsimp only
      cases hr : op.result with
      | some l => exact .same
      | none => exact .next hn (.timeout hr)
  | cleared n => simp only [step, Channel.cleared]; split <;> exact .same
  | answered i thrown => simp only [step, Channel.answered]; repeat' split
                         all_goals exact .same
  | commandDone i status thrown => simp only [step, Channel.commandDone]; repeat' split
                                   all_goals exact .same
  | _ => exact .same

theorem drop_socket (ch : Channel) (c : ConnId) : (ch.drop c).socket = ch.socket ∨ (ch.drop c).socket = none := by
  unfold Channel.drop
  split
  · exact Or.inr rfl
  · exact Or.inl rfl

theorem step_socket (ch : Channel) (e : Event) : (step O ch e).1.socket = ch.socket ∨
    (step O ch e).1.socket = none := by
  cases e with
  | stop => exact Or.inr rfl
  | opened c openCodeVersion webUiAvailable thrown =>
    simp only [step, Channel.opened]
    repeat' split
    all_goals first | exact Or.inl rfl | exact drop_socket ch c
  | closed c code =>
    simp only [step, Channel.closed]
    repeat' split
    all_goals first | exact Or.inl rfl | exact Or.inr rfl | exact drop_socket ch c
  | error c => exact drop_socket ch c
  | listSettled n k response titles nowIso => simp only [step, Channel.listSettled]; repeat' split
                                              all_goals exact Or.inl rfl
  | collectionTimeout n => simp only [step, Channel.collectionTimeout]; repeat' split
                           all_goals exact Or.inl rfl
  | cleared n => simp only [step, Channel.cleared]; split <;> exact Or.inl rfl
  | answered i thrown => simp only [step, Channel.answered]; repeat' split
                         all_goals exact Or.inl rfl
  | commandDone i status thrown => simp only [step, Channel.commandDone]; repeat' split
                                   all_goals exact Or.inl rfl
  | _ => exact Or.inl rfl

theorem socket_of_holds {ch : Channel} {c : ConnId} (h : ch.holds c = true) : ch.socket = some c := by
  simp only [Channel.holds, Bool.and_eq_true, beq_iff_eq] at h
  exact h.2

/-- A frame goes out on the socket the channel has, and a snapshot response carries the
    result of its collection. -/
theorem step_sends {ch : Channel} {e : Event} {c : ConnId} {f : Frame} (h : (step O ch e).2 = some (c, f)) :
    ch.socket = some c ∧ ∀ requestId instanceId l, f.message = .pendingSnapshotResponse requestId instanceId l →
      ∃ n op, f.collection = some n ∧ ch.operations[n]? = some op ∧ op.result = some l := by
  cases e with
  | opened d openCodeVersion webUiAvailable thrown =>
    simp only [step, Channel.opened] at h
    split at h
    · cases h
    · rename_i hh
      split at h
      · cases h
      · cases h; exact ⟨socket_of_holds (Bool.not_eq_false _ ▸ hh), nofun⟩
  | answered i thrown =>
    simp only [step, Channel.answered] at h
    split at h
    · cases h
    · rename_i a ha
      split at h
      · cases h
      · rename_i l hl
        obtain ⟨op, hop, hres⟩ := Option.bind_eq_some_iff.mp hl
        dsimp only at h
        split at h
        · rename_i hh
          cases h
          refine ⟨socket_of_holds (Bool.and_eq_true_iff.mp hh).1, fun _ _ _ hm => ?_⟩
          cases hm
          exact ⟨_, op, rfl, hop, hres⟩
        · cases h
  | commandDone i status thrown =>
    simp only [step, Channel.commandDone] at h
    split at h
    · cases h
    · rename_i a ha
      dsimp only at h
      split at h
      · rename_i hh
        cases h
        refine ⟨socket_of_holds (Bool.and_eq_true_iff.mp hh).1, fun _ _ _ hm => ?_⟩
        rcases a with ⟨k, _, _, _⟩
        cases k <;> cases hm
      · cases h
  | reply d m =>
    simp only [step] at h
    split at h
    · rename_i hh
      cases h
      obtain ⟨hd, hm⟩ := Bool.and_eq_true_iff.mp hh
      refine ⟨socket_of_holds hd, fun _ _ _ he => ?_⟩
      simp only at he
      rw [he] at hm; cases hm
    · cases h
  | _ => cases h

end NotifyHub.Plugin
