import ImapSieve.Protocol.Sound

/-!
# A Batch Processes a Prefix

What one call of `run_batch` does, in surroundings that may do anything but change the state
store: any list may be fetched, the engine may give any result, every command, send and state
write may fail.

`Visit` is what is done for one message, from its evaluation to the write of the bookmark. A
returned batch is a list of visits that went through, and one more where it stopped early.
-/

namespace ImapSieve

open Effects

/-! ## Section 1: Surroundings -/

/-- The state store is as it was. -/
def SameState (w w' : World) : Prop := w'.memory = w.memory ∧ w'.disk = w.disk

theorem SameState.trans {w₁ w₂ w₃ : World} (h₁ : SameState w₁ w₂) (h₂ : SameState w₂ w₃) :
    SameState w₁ w₃ :=
  ⟨h₂.1.trans h₁.1, h₂.2.trans h₁.2⟩

/-- Any reply to any call. The state store reads and writes what it is told to; a failed write
leaves the old file. -/
def World.Replies (w : World) : (c : Call) → Reply c → World → Prop
  | .state, s, w' => s = w.memory ∧ SameState w w'
  | .update change, .ok (), w' =>
      w'.memory = change.apply w.memory ∧ w'.disk = change.apply w.memory
  | .update change, .error _, w' => w'.memory = change.apply w.memory ∧ w'.disk = w.disk
  | _, _, w' => SameState w w'

/-- Surroundings in which everything else may happen. -/
def openWorld : Surroundings Call Reply World where
  answers := World.Replies
  drifts := SameState
  restarts _ _ := False

theorem replies_of_answers {w w' : World} {c : Call} {r : Reply c} (h : w.Answers c r w') :
    w.Replies c r w' := by
  have hsame : c.sets = false → SameState w w' := fun hc => ⟨(h.same hc).memory, (h.same hc).disk⟩
  cases c with
  | state => exact ⟨h.1, hsame rfl⟩
  | update change =>
    cases r with
    | ok u => cases h; exact ⟨rfl, rfl⟩
    | error e => cases h; exact ⟨rfl, rfl⟩
  | connect => rcases r with _ | e | u <;> obtain ⟨-, rfl⟩ := h <;> exact ⟨rfl, rfl⟩
  | select mailbox =>
    cases r with
    | ok status => cases h; exact ⟨rfl, rfl⟩
    | error e => obtain ⟨-, rfl⟩ := h; exact ⟨rfl, rfl⟩
  | _ => exact hsame rfl

/-- The runs of the daemon's world are among those in the open one. -/
theorem steps_open {α : Type} {x y : Config Call Reply World α} (h : Steps daemonWorld x y) :
    Steps openWorld x y := by
  refine Relation.ReflTransGen.mono (fun x y hstep => ?_) _ _ h
  cases hstep with
  | call hans => exact .call (replies_of_answers hans)
  | unroll => exact .unroll
  | drift hd => exact .drift ⟨hd.memory, hd.disk⟩

/-! ## Section 2: The calls for one message -/

/-- The calls, in order, of one execution of the actions on the message: they are all for this
message. -/
structure Executes (p : MessageProcessor) (msg : MessageContext) (actions : List SieveAction)
    (calls : List (Entry Call Reply World)) (result : Except CoreError Unit) : Prop where
  run : ∃ w w', Steps openWorld ⟨(p.executor.execute msg actions).run, w, []⟩
    ⟨.ret result, w', calls.reverse⟩
  own : ∀ e ∈ calls, ∃ w c r, e = .called w c r ∧ c.IsFor msg.uid

/-- What became of a message. -/
inductive Fate where
  | done (result : ProcessingResult)
  | failed (result : ProcessingResult)
  /-- The bookmark could not be written. -/
  | unwritten (e : StateError)

/-- The calls made for a message, in order, and what became of it: it is evaluated once, then its
actions are executed once, then the bookmark is advanced, up to the first of these that fails. -/
inductive Visit (p : MessageProcessor) (script : CompiledScript) (msg : MessageContext) :
    List (Entry Call Reply World) → Fate → Prop where
  | unevaluated (w : World) {e : SieveError} :
      Visit p script msg [.called w (.evaluate script msg) (.error e)]
        (.failed ⟨msg.uid, [.keep], .sieveError e.display⟩)
  | unexecuted (w w' : World) {actions : List SieveAction}
      {calls : List (Entry Call Reply World)} {e : CoreError}
      (hexec : Executes p msg actions calls (.error e)) :
      Visit p script msg
        (.called w (.evaluate script msg) (.ok actions) :: calls ++
          [.called w' (.executed msg.uid (.error e)) ()])
        (.failed ⟨msg.uid, actions, .actionError e.display⟩)
  | unwritten (w w' w'' : World) {actions : List SieveAction}
      {calls : List (Entry Call Reply World)} {e : StateError}
      (hexec : Executes p msg actions calls (.ok ())) :
      Visit p script msg
        (.called w (.evaluate script msg) (.ok actions) :: calls ++
          [.called w' (.executed msg.uid (.ok ())) (),
            .called w'' (.update (.advance msg.uid)) (.error e)])
        (.unwritten e)
  | done (w w' w'' : World) {actions : List SieveAction}
      {calls : List (Entry Call Reply World)} (hexec : Executes p msg actions calls (.ok ())) :
      Visit p script msg
        (.called w (.evaluate script msg) (.ok actions) :: calls ++
          [.called w' (.executed msg.uid (.ok ())) (),
            .called w'' (.update (.advance msg.uid)) (.ok ())])
        (.done ⟨msg.uid, actions, .ok⟩)

/-- What the visit leaves in the state store. -/
def Fate.Leaves (uid : Nat) (w w' : World) : Fate → Prop
  | .done _ =>
      w'.memory = (StateChange.advance uid).apply w.memory ∧
        w'.disk = (StateChange.advance uid).apply w.memory
  | .failed _ => SameState w w'
  | .unwritten _ => w'.memory = (StateChange.advance uid).apply w.memory ∧ w'.disk = w.disk

/-- What remains of the loop after a visit: the rest of the messages, or the return. -/
def Fate.rest (p : MessageProcessor) (script : CompiledScript) (rest : List MessageContext)
    (results : List ProcessingResult) : Fate → Program (Except CoreError (List ProcessingResult))
  | .done r => (p.processMessages script rest (results ++ [r])).run
  | .failed r => .ret (.ok (results ++ [r]))
  | .unwritten e => .ret (.error (.state e))

/-- The loop after the reply of the state store. -/
def afterUpdate (p : MessageProcessor) (script : CompiledScript) (msg : MessageContext)
    (rest : List MessageContext) (results : List ProcessingResult) (actions : List SieveAction) :
    Except StateError Unit → Program (Except CoreError (List ProcessingResult))
  | .ok () => Fate.rest p script rest results (.done ⟨msg.uid, actions, .ok⟩)
  | .error e => Fate.rest p script rest results (.unwritten e)

/-- The loop after the execution of the actions. -/
def afterExecute (p : MessageProcessor) (script : CompiledScript) (msg : MessageContext)
    (rest : List MessageContext) (results : List ProcessingResult) (actions : List SieveAction) :
    Except CoreError Unit → Program (Except CoreError (List ProcessingResult))
  | .ok () => .call (.update (.advance msg.uid)) (afterUpdate p script msg rest results actions)
  | .error e =>
      Fate.rest p script rest results (.failed ⟨msg.uid, actions, .actionError e.display⟩)

/-- The loop after the evaluation of the message. -/
def afterEvaluate (p : MessageProcessor) (script : CompiledScript) (msg : MessageContext)
    (rest : List MessageContext) (results : List ProcessingResult) :
    Except SieveError (List SieveAction) → Program (Except CoreError (List ProcessingResult))
  | .error e =>
      Fate.rest p script rest results (.failed ⟨msg.uid, [.keep], .sieveError e.display⟩)
  | .ok actions => (p.executor.execute msg actions).run >>= fun executed =>
      .call (.executed msg.uid executed) fun _ =>
        afterExecute p script msg rest results actions executed

theorem run_processMessages_cons (p : MessageProcessor) (script : CompiledScript)
    (msg : MessageContext) (rest : List MessageContext) (results : List ProcessingResult) :
    (p.processMessages script (msg :: rest) results).run =
      .call (.evaluate script msg) (afterEvaluate p script msg rest results) := by
  rw [MessageProcessor.processMessages]
  refine congrArg (Prog.call _) (funext fun evaluated => ?_)
  cases evaluated with
  | error e => rfl
  | ok actions =>
    refine (Prog.bind_assoc (p.executor.execute msg actions).run _ _).trans ?_
    refine congrArg (Prog.bind _) (funext fun executed => ?_)
    refine congrArg (Prog.call _) (funext fun _ => ?_)
    cases executed with
    | error e => rfl
    | ok u => exact congrArg (Prog.call _) (funext fun written => by cases written <;> rfl)

theorem reverse_visit {α : Type} (first : α) (calls last before : List α) :
    (first :: calls ++ last).reverse ++ before =
      last.reverse ++ (calls.reverse ++ first :: before) := by
  simp

section Visits

variable {p : MessageProcessor} {script : CompiledScript} {msg : MessageContext}
  {rest : List MessageContext} {results : List ProcessingResult} {w w' : World} {tr tr' : History}
  {result : Except CoreError (List ProcessingResult)}

theorem sameState_call {w₁ w₂ : World} {c : Call} {r : Reply c} (h : w₁.Replies c r w₂)
    (hc : ∀ change, c ≠ .update change) : SameState w₁ w₂ := by
  cases c with
  | update change => exact absurd rfl (hc change)
  | state => exact h.2
  | _ => exact h

/-- A returned execution. -/
theorem executes_of_steps {actions : List SieveAction} {r : Except CoreError Unit}
    (h : Steps openWorld ⟨(p.executor.execute msg actions).run, w, tr⟩ ⟨.ret r, w', tr'⟩) :
    SameState w w' ∧ ∃ calls, tr' = calls.reverse ++ tr ∧ Executes p msg actions calls r := by
  have honly := only_execute (S := openWorld) p.executor msg actions
  -- the first half is about the state, the second about the calls: both are of one kind
  constructor
  · refine Monitor.world_of_only (I := SameState w) honly ?_ ?_ h ⟨rfl, rfl⟩
    · intro w₁ c r w₂ hc hans hsame
      refine hsame.trans (sameState_call hans ?_)
      rintro change rfl
      exact hc
    · exact fun w₁ w₂ hd hsame => hsame.trans hd
  · obtain ⟨new, htrace, hsteps⟩ := h.of_trace
    refine ⟨new.reverse, by rw [List.reverse_reverse]; exact htrace, ?_, ?_⟩
    · rw [List.reverse_reverse]
      exact ⟨w, w', hsteps⟩
    · intro e he
      exact Monitor.calls_of_only honly hsteps e (List.mem_reverse.mp he)

/-- The loop visits its first message and goes on as its fate says. -/
theorem steps_visit
    (h : Steps openWorld ⟨(p.processMessages script (msg :: rest) results).run, w, tr⟩
      ⟨.ret result, w', tr'⟩) :
    ∃ calls fate w₁, Visit p script msg calls fate ∧ fate.Leaves msg.uid w w₁ ∧
      Steps openWorld ⟨fate.rest p script rest results, w₁, calls.reverse ++ tr⟩
        ⟨.ret result, w', tr'⟩ := by
  have hdrift : ∀ w₁ w₂ : World, openWorld.drifts w₁ w₂ → SameState w w₁ → SameState w w₂ :=
    fun w₁ w₂ hd hsame => hsame.trans hd
  rw [run_processMessages_cons] at h
  obtain ⟨w₁, evaluated, w₂, hsame₁, hans₁, h⟩ := steps_call_ret ⟨rfl, rfl⟩ hdrift h
  have hsame₂ : SameState w w₂ := hsame₁.trans hans₁
  cases evaluated with
  | error e => exact ⟨_, _, w₂, .unevaluated w₁, hsame₂, h⟩
  | ok actions =>
    -- the execution, then the mark of its return
    obtain ⟨executed, w₃, tr₃, hsteps, h⟩ := steps_bind_ret h
    obtain ⟨hsame₃, calls, rfl, hexec⟩ := executes_of_steps (p := p) hsteps
    obtain ⟨w₄, _, w₅, hsame₄, hans₄, h⟩ := steps_call_ret (hsame₂.trans hsame₃) hdrift h
    have hsame₅ : SameState w w₅ := hsame₄.trans hans₄
    cases executed with
    | error e =>
      refine ⟨_, _, w₅, .unexecuted w₁ w₄ hexec, hsame₅, ?_⟩
      rw [reverse_visit]
      exact h
    | ok u =>
      -- the bookmark
      obtain ⟨w₆, written, w₇, hsame₆, hans₆, h⟩ := steps_call_ret hsame₅ hdrift h
      cases written with
      | ok u =>
        refine ⟨_, _, w₇, .done w₁ w₄ w₆ hexec, ?_, ?_⟩
        · obtain ⟨hmem, hdisk⟩ := hans₆
          rw [hsame₆.1] at hmem hdisk
          exact ⟨hmem, hdisk⟩
        · rw [reverse_visit]
          exact h
      | error e =>
        refine ⟨_, .unwritten e, w₇, .unwritten w₁ w₄ w₆ hexec, ?_, ?_⟩
        · obtain ⟨hmem, hdisk⟩ := hans₆
          rw [hsame₆.1] at hmem
          exact ⟨hmem, hdisk.trans hsame₆.2⟩
        · rw [reverse_visit]
          exact h

end Visits

/-! ## Section 3: The visits of a batch -/

/-- A message that was processed. -/
structure Visited where
  msg : MessageContext
  calls : List (Entry Call Reply World)
  result : ProcessingResult

/-- The state after messages were processed: the bookmark is the maximum of the old one and
their UIDs, and nothing else has changed. -/
def State.reached (s : State) (u : Nat) (messages : List MessageContext) : State :=
  { s with lastSeenUid := some ((messages.map MessageContext.uid).foldl max u) }

/-- How the loop over a batch ends after the messages that were processed: with the whole batch,
or at the next message. The last calls are those for that message. -/
inductive LoopEnds (p : MessageProcessor) (script : CompiledScript) (s : State) (u : Nat)
    (batch : List MessageContext) (visited : List Visited) :
    List (Entry Call Reply World) → Except CoreError (List ProcessingResult) → World → Prop where
  | whole {w : World} (hbatch : batch = visited.map Visited.msg)
      (hmemory : w.memory = s.reached u (visited.map Visited.msg)) (hdisk : w.disk = w.memory) :
      LoopEnds p script s u batch visited [] (.ok (visited.map Visited.result)) w
  | failed {msg : MessageContext} {rest : List MessageContext}
      {last : List (Entry Call Reply World)} {result : ProcessingResult} {w : World}
      (hbatch : batch = visited.map Visited.msg ++ msg :: rest)
      (hlast : Visit p script msg last (.failed result))
      (hmemory : w.memory = s.reached u (visited.map Visited.msg)) (hdisk : w.disk = w.memory) :
      LoopEnds p script s u batch visited last (.ok (visited.map Visited.result ++ [result])) w
  | unwritten {msg : MessageContext} {rest : List MessageContext}
      {last : List (Entry Call Reply World)} {e : StateError} {w : World}
      (hbatch : batch = visited.map Visited.msg ++ msg :: rest)
      (hlast : Visit p script msg last (.unwritten e))
      (hmemory : w.memory = s.reached u (visited.map Visited.msg ++ [msg]))
      (hdisk : w.disk = s.reached u (visited.map Visited.msg)) :
      LoopEnds p script s u batch visited last (.error (.state e)) w

section Loop

variable {p : MessageProcessor} {script : CompiledScript} {s : State} {u : Nat}
  {w w' : World} {tr tr' : History} {result : Except CoreError (List ProcessingResult)}

theorem reached_nil_self (h : s.lastSeenUid = some u) : s.reached u [] = s := by
  cases s
  cases h
  rfl

theorem advance_apply (h : s.lastSeenUid = some u) (msg : MessageContext) :
    (StateChange.advance msg.uid).apply s = s.reached u [msg] := by
  simp [StateChange.apply, State.reached, h, max_comm]

/-- A message processed before the others. -/
theorem LoopEnds.cons {v : Visited} {batch : List MessageContext} {visited : List Visited}
    {last : List (Entry Call Reply World)}
    (h : LoopEnds p script (s.reached u [v.msg]) (max u v.msg.uid) batch visited last result w) :
    LoopEnds p script s u (v.msg :: batch) (v :: visited) last (result.map (v.result :: ·)) w := by
  -- the maximum of the UIDs is the same, counted from this message on
  cases h with
  | whole hbatch hmemory hdisk =>
    exact .whole (congrArg _ hbatch) hmemory hdisk
  | failed hbatch hlast hmemory hdisk =>
    exact .failed (congrArg _ hbatch) hlast hmemory hdisk
  | unwritten hbatch hlast hmemory hdisk =>
    exact .unwritten (congrArg _ hbatch) hlast hmemory hdisk

/-- Once the loop has returned, only others act. -/
theorem steps_returned {α : Type} {a b : α}
    (h : Steps openWorld ⟨.ret a, w, tr⟩ ⟨.ret b, w', tr'⟩) :
    b = a ∧ tr' = tr ∧ SameState w w' := by
  obtain ⟨hprog, htrace, hsame⟩ := steps_ret (P := fun w₁ tr₁ => tr₁ = tr ∧ SameState w w₁)
    ⟨rfl, rfl, rfl⟩ (fun w₁ w₂ tr₁ h hd => ⟨h.1, h.2.trans hd⟩) h
  cases hprog
  exact ⟨rfl, htrace, hsame⟩

/-- The loop processes the messages in order, up to the first failure. -/
theorem steps_processMessages {messages : List MessageContext} {results : List ProcessingResult}
    (hu : w.memory.lastSeenUid = some u) (hagree : w.disk = w.memory)
    (h : Steps openWorld ⟨(p.processMessages script messages results).run, w, tr⟩
      ⟨.ret result, w', tr'⟩) :
    ∃ visited last processed,
      (∀ v ∈ visited, Visit p script v.msg v.calls (.done v.result)) ∧
      tr' = (visited.flatMap Visited.calls ++ last).reverse ++ tr ∧
      LoopEnds p script w.memory u messages visited last processed w' ∧
      result = processed.map (results ++ ·) := by
  induction messages generalizing results w tr u with
  | nil =>
    obtain ⟨rfl, rfl, hmemory, hdisk⟩ := steps_returned h
    refine ⟨[], [], .ok [], fun v hv => (by cases hv), rfl, .whole rfl ?_ ?_, ?_⟩
    · rw [hmemory]
      exact (reached_nil_self hu).symm
    · rw [hdisk, hagree, hmemory]
    · exact congrArg Except.ok (List.append_nil results).symm
  | cons msg rest ih =>
    obtain ⟨calls, fate, w₁, hvisit, hleaves, h⟩ := steps_visit h
    cases fate with
    | done r =>
      -- the message is processed, and the loop goes on with the rest from its UID
      obtain ⟨hmemory, hdisk⟩ := hleaves
      rw [advance_apply hu] at hmemory hdisk
      obtain ⟨visited, last, processed, hvisits, rfl, hends, rfl⟩ :=
        ih (u := max u msg.uid) (by rw [hmemory]; rfl) (hdisk.trans hmemory.symm) h
      rw [hmemory] at hends
      refine ⟨⟨msg, calls, r⟩ :: visited, last, _, ?_, ?_, hends.cons (v := ⟨msg, calls, r⟩), ?_⟩
      · intro v hv
        rcases List.mem_cons.mp hv with rfl | hv
        · exact hvisit
        · exact hvisits v hv
      · simp
      · cases processed <;> simp [Except.map]
    | failed r =>
      -- the loop breaks, and the state stays as the messages before left it
      obtain ⟨rfl, rfl, hsame⟩ := steps_returned h
      obtain ⟨hmemory, hdisk⟩ := hleaves.trans hsame
      refine ⟨[], calls, .ok [r], fun v hv => (by cases hv), rfl, ?_, rfl⟩
      refine .failed (show msg :: rest = [].map Visited.msg ++ msg :: rest from rfl) hvisit ?_ ?_
      · rw [hmemory]
        exact (reached_nil_self hu).symm
      · rw [hdisk, hagree, hmemory]
    | unwritten e =>
      -- the loop returns the error, with the memory ahead of the file by this message
      obtain ⟨rfl, rfl, hsame⟩ := steps_returned h
      obtain ⟨hmemory, hdisk⟩ := hleaves
      refine ⟨[], calls, .error (.state e), fun v hv => (by cases hv), rfl, ?_, rfl⟩
      refine .unwritten (show msg :: rest = [].map Visited.msg ++ msg :: rest from rfl) hvisit ?_ ?_
      · rw [hsame.1, hmemory, advance_apply hu]
        rfl
      · rw [hsame.2, hdisk, hagree]
        exact (reached_nil_self hu).symm

end Loop

/-! ## Section 4: The batch -/

/-- The calls of a returned batch, its result, and the world it leaves: the fetch failed, or the
loop ran over the first `batchSize` messages fetched. -/
inductive BatchRuns (p : MessageProcessor) (u : Nat) (w : World) :
    History → Except CoreError (List ProcessingResult) → World → Prop where
  | unfetched {w₁ w₂ w' : World} {e : CoreError} (hsame : SameState w w') :
      BatchRuns p u w
        [.called w₂ (.fetchUidRange p.mailbox (MessageProcessor.startUid u)
            (p.changedSince w.memory)) (.error e),
          .called w₁ .state w.memory] (.error e) w'
  | fetched {w₁ w₂ w₃ w' : World} {messages : List MessageContext} {script : CompiledScript}
      {visited : List Visited} {last : List (Entry Call Reply World)}
      {result : Except CoreError (List ProcessingResult)}
      (hvisits : ∀ v ∈ visited, Visit p script v.msg v.calls (.done v.result))
      (hends : LoopEnds p script w.memory u (messages.take p.batchSize) visited last result w') :
      BatchRuns p u w
        ((visited.flatMap Visited.calls ++ last).reverse ++
          [.called w₃ .currentScript script,
            .called w₂ (.fetchUidRange p.mailbox (MessageProcessor.startUid u)
              (p.changedSince w.memory)) (.ok messages),
            .called w₁ .state w.memory]) result w'

section Batch

variable {p : MessageProcessor} {u : Nat} {w w' : World} {tr : History}
  {result : Except CoreError (List ProcessingResult)}

theorem loopFree_processMessages (script : CompiledScript) (messages : List MessageContext)
    (results : List ProcessingResult) :
    LoopFree (p.processMessages script messages results).run := by
  induction messages generalizing results with
  | nil => exact .ret _
  | cons msg rest ih =>
    rw [run_processMessages_cons]
    refine .call fun evaluated => ?_
    cases evaluated with
    | error e => exact .ret _
    | ok actions =>
      refine .bind (loopFree_execute _ _ _) fun executed => .call fun _ => ?_
      cases executed with
      | error e => exact .ret _
      | ok u =>
        refine .call fun written => ?_
        cases written with
        | ok u => exact ih _
        | error e => exact .ret _

/-- The batch after the FETCH. -/
def afterFetch (p : MessageProcessor) :
    Except CoreError (List MessageContext) → Program (Except CoreError (List ProcessingResult))
  | .error e => .ret (.error e)
  | .ok messages => .call .currentScript fun script =>
      (p.processMessages script (messages.take p.batchSize) []).run

/-- The batch after the state was read. -/
def afterState (p : MessageProcessor) (state : State) :
    Program (Except CoreError (List ProcessingResult)) :=
  match state.lastSeenUid with
  | none => .ret (.error (.imap
      "last_seen_uid not initialized; SessionManager must seed it from UIDNEXT"))
  | some uid =>
      .call (.fetchUidRange p.mailbox (MessageProcessor.startUid uid) (p.changedSince state))
        (afterFetch p)

theorem run_runBatch (p : MessageProcessor) : p.runBatch.run = .call .state (afterState p) := by
  refine congrArg (Prog.call _) (funext fun state => ?_)
  obtain ⟨mailbox, validity, seen, modseq⟩ := state
  cases seen with
  | none => rfl
  | some uid => exact congrArg (Prog.call _) (funext fun fetched => by cases fetched <;> rfl)

theorem loopFree_runBatch : LoopFree p.runBatch.run := by
  rw [run_runBatch]
  refine .call fun state => ?_
  unfold afterState
  split
  · exact .ret _
  · refine .call fun fetched => ?_
    cases fetched with
    | error e => exact .ret _
    | ok messages => exact .call fun script => loopFree_processMessages script _ _

/-- A returned batch has processed a prefix. -/
theorem steps_runBatch (hu : w.memory.lastSeenUid = some u) (hagree : w.disk = w.memory)
    (h : Steps openWorld ⟨p.runBatch.run, w, []⟩ ⟨.ret result, w', tr⟩) :
    BatchRuns p u w tr result w' := by
  have hdrift : ∀ w₁ w₂ : World, openWorld.drifts w₁ w₂ → SameState w w₁ → SameState w w₂ :=
    fun w₁ w₂ hd hsame => hsame.trans hd
  rw [run_runBatch] at h
  -- the state that is read is that of the memory at the start
  obtain ⟨w₁, state, w₂, hsame₁, ⟨hstate, hsame₂⟩, h⟩ := steps_call_ret ⟨rfl, rfl⟩ hdrift h
  obtain rfl : state = w.memory := hstate.trans hsame₁.1
  rw [afterState, hu] at h
  obtain ⟨w₃, fetched, w₄, hsame₃, hans₃, h⟩ := steps_call_ret (hsame₁.trans hsame₂) hdrift h
  have hsame₄ : SameState w w₄ := hsame₃.trans hans₃
  cases fetched with
  | error e =>
    -- nothing was fetched
    obtain ⟨rfl, rfl, hsame⟩ := steps_returned h
    exact .unfetched (hsame₄.trans hsame)
  | ok messages =>
    obtain ⟨w₅, script, w₆, hsame₅, hans₅, h⟩ := steps_call_ret hsame₄ hdrift h
    obtain ⟨hmemory, hdisk⟩ : SameState w w₆ := hsame₅.trans hans₅
    -- the loop over the first messages of the answer
    obtain ⟨visited, last, processed, hvisits, rfl, hends, rfl⟩ :=
      steps_processMessages (hmemory ▸ hu) (hdisk.trans (hagree.trans hmemory.symm)) h
    rw [hmemory] at hends
    have hresult : processed.map ([] ++ ·) = processed := by cases processed <;> rfl
    rw [hresult]
    exact .fetched hvisits hends

/-- `run_batch` returns, and then it has processed exactly a prefix of the batch. -/
theorem run_batch_processes_prefix (p : MessageProcessor) (u : Nat) (w : World)
    (hu : w.memory.lastSeenUid = some u) (hagree : w.disk = w.memory) :
    (∀ x, Steps openWorld ⟨p.runBatch.run, w, []⟩ x →
      ∃ result w' tr, Steps openWorld x ⟨.ret result, w', tr⟩) ∧
    ∀ result w' tr, Steps openWorld ⟨p.runBatch.run, w, []⟩ ⟨.ret result, w', tr⟩ →
      BatchRuns p u w tr result w' := by
  refine ⟨fun x hx => ?_, fun result w' tr hret => steps_runBatch hu hagree hret⟩
  have hans : ∀ (w : World) (c : Call), ∃ r w', openWorld.answers w c r w' :=
    fun w c => ⟨_, _, replies_of_answers (answers_respond {} w c)⟩
  exact (loopFree_runBatch.steps hx).returns hans x.world x.trace

/-- A batch of at most one message. -/
theorem run_batch_processes_prefix_one :
    (∀ x, Steps openWorld ⟨(⟨true, {}, "INBOX", 1⟩ : MessageProcessor).runBatch.run,
        { sampleExecutorWorld with
          memory := { lastSeenUid := some 0 }, disk := { lastSeenUid := some 0 } }, []⟩ x →
      ∃ result w' tr, Steps openWorld x ⟨.ret result, w', tr⟩) ∧
    ∀ result w' tr, Steps openWorld ⟨(⟨true, {}, "INBOX", 1⟩ : MessageProcessor).runBatch.run,
        { sampleExecutorWorld with
          memory := { lastSeenUid := some 0 }, disk := { lastSeenUid := some 0 } }, []⟩
        ⟨.ret result, w', tr⟩ →
      BatchRuns ⟨true, {}, "INBOX", 1⟩ 0
        { sampleExecutorWorld with
          memory := { lastSeenUid := some 0 }, disk := { lastSeenUid := some 0 } } tr result w' :=
  run_batch_processes_prefix ⟨true, {}, "INBOX", 1⟩ 0
    { sampleExecutorWorld with
      memory := { lastSeenUid := some 0 }, disk := { lastSeenUid := some 0 } } rfl rfl

end Batch

end ImapSieve
