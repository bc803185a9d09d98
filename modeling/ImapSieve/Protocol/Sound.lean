import ImapSieve.Executor.Message
import ImapSieve.Protocol.Daemon
import Mathlib.Data.List.Induction

/-!
# What Holds in Each Phase

`Phase.Sound` says for every phase what is known about the world and the trace when the
daemon is there: which mailbox is selected, what the state store holds, where the bookmark
of a batch stands and what became of its messages. One lemma (`sound_call`) shows that every
call of the protocol preserves it, so it holds wherever the daemon comes (`daemon_sound`).
-/

namespace ImapSieve

open Effects

/-! ## Section 1: Reading a trace -/

def Call.isFetch : Call → Bool
  | .fetchUidRange _ _ _ => true
  | _ => false

/-- The FETCH of a batch was answered. -/
def answersFetch : Entry Call Reply World → Bool
  | .called _ (.fetchUidRange _ _ _) (.ok _) => true
  | _ => false

/-- The world in which the latest FETCH was answered. -/
def lastFetch : History → Option World
  | [] => none
  | .restarted _ :: tr => lastFetch tr
  | .called w c r :: tr => if answersFetch (.called w c r) then some w else lastFetch tr

/-- What was answered since the latest FETCH. -/
def sinceFetch (tr : History) : History := tr.takeWhile fun e => !answersFetch e

/-- The message was evaluated successfully. -/
def Evaluated (tr : History) (msg : MessageContext) : Prop :=
  ∃ w script actions, .called w (.evaluate script msg) (.ok actions) ∈ tr

/-- `execute` returned `Ok` for the message. -/
def Executed (tr : History) (uid : Nat) : Prop := ∃ w, .called w (.executed uid (.ok ())) () ∈ tr

/-- The message was evaluated successfully and `execute` returned `Ok`. -/
def Processed (tr : History) (msg : MessageContext) : Prop :=
  Evaluated tr msg ∧ Executed tr msg.uid

/-- Some message failed. -/
def Failed (tr : History) : Prop :=
  (∃ w script msg e, .called w (.evaluate script msg) (.error e) ∈ tr) ∨
    ∃ w uid e, .called w (.executed uid (.error e)) () ∈ tr

section Trace

variable {w : World} {c : Call} {r : Reply c} {tr tr' : History} {msg : MessageContext}

theorem answersFetch_of_not_isFetch (hc : c.isFetch = false) :
    answersFetch (.called w c r) = false := by
  cases c <;> first | rfl | cases hc

@[simp] theorem lastFetch_called (hc : c.isFetch = false) :
    lastFetch (.called w c r :: tr) = lastFetch tr := by
  simp [lastFetch, answersFetch_of_not_isFetch hc]

@[simp] theorem sinceFetch_called (hc : c.isFetch = false) :
    sinceFetch (.called w c r :: tr) = .called w c r :: sinceFetch tr := by
  simp [sinceFetch, answersFetch_of_not_isFetch hc]

theorem sinceFetch_subset (tr : History) : sinceFetch tr ⊆ tr :=
  (List.takeWhile_prefix _).subset

theorem Evaluated.mono (h : Evaluated tr msg) (hsub : tr ⊆ tr') : Evaluated tr' msg := by
  obtain ⟨w, script, actions, hmem⟩ := h
  exact ⟨w, script, actions, hsub hmem⟩

theorem Executed.mono {uid : Nat} (h : Executed tr uid) (hsub : tr ⊆ tr') : Executed tr' uid :=
  h.imp fun _ hmem => hsub hmem

theorem Processed.mono (h : Processed tr msg) (hsub : tr ⊆ tr') : Processed tr' msg :=
  ⟨h.1.mono hsub, h.2.mono hsub⟩

end Trace

/-! ## Section 2: The surroundings of the daemon -/

/-- Surroundings that do nothing but what the daemon's world allows. -/
structure Admissible (S : Surroundings Call Reply World) : Prop where
  answers : ∀ {w c r w'}, S.answers w c r w' → World.Answers w c r w'
  drifts : ∀ {w w'}, S.drifts w w' → World.Drifts w w'
  restarts : ∀ {w w'}, S.restarts w w' → w' = w.restart

theorem admissible_daemonWorld : Admissible daemonWorld where
  answers h := h
  drifts h := h
  restarts h := h

theorem admissible_under (reg : Regime Call Reply World) : Admissible (daemonWorld.under reg) where
  answers h := h.1
  drifts h := h.1
  restarts h := h.1

/-- What the world may be left with after a call was answered. -/
inductive World.Writes (w : World) : (c : Call) → Reply c → World → Prop where
  | nothing {c : Call} {r : Reply c} : w.Writes c r w
  | connectLeft : w.Writes .connect .notified { w with permit := false }
  | connected {r : Except CoreError Unit} :
      w.Writes .connect (.finished r) { w with selected := none, announced := none }
  | sleepLeft (delay : Nat) : w.Writes (.sleep delay) .notified { w with permit := false }
  | selected {mailbox : String} {r : Except CoreError MailboxStatus} (sel : Option String) :
      w.Writes (.select mailbox) r { w with selected := sel }
  | fetched {mailbox : String} {start : Nat} {since : Option Nat}
      {r : Except CoreError (List MessageContext)} :
      w.Writes (.fetchUidRange mailbox start since) r { w with announced := some [] }
  | ran {cmd : ImapCommand} {r : Except CoreError Unit} {sel : String} {s : Server}
      (hsel : w.selected = some sel) (hrun : w.server.run sel cmd = some s) :
      w.Writes (.command cmd) r { w with server := s }
  | idleLeft (timeout : Nat) :
      w.Writes (.idle timeout) .notified { w with permit := false, announced := none }
  | idled {timeout : Nat} {r : Except CoreError IdleEvent} :
      w.Writes (.idle timeout) (.finished r) { w with announced := none }
  | sent {mail : OutgoingMail} {r : Except CoreError Unit} :
      w.Writes (.send mail) r { w with sent := mail :: w.sent }
  | updated {change : StateChange} {r : Except StateError Unit} (disk : State) :
      w.Writes (.update change) r { w with memory := change.apply w.memory, disk := disk }

theorem World.Answers.writes {w w' : World} {c : Call} {r : Reply c} (h : w.Answers c r w') :
    w.Writes c r w' := by
  cases c with
  | connect =>
    rcases r with _ | e | u
    · obtain ⟨-, rfl⟩ := h
      exact .connectLeft
    · obtain ⟨-, rfl⟩ := h
      exact .nothing
    · obtain ⟨-, rfl⟩ := h
      exact .connected
  | sleep delay =>
    rcases r with _ | u
    · obtain ⟨-, rfl⟩ := h
      exact .sleepLeft delay
    · cases h
      exact .nothing
  | genRange jitter =>
    obtain ⟨-, rfl⟩ := h
    exact .nothing
  | capabilities =>
    rcases r with e | caps
    · obtain ⟨-, rfl⟩ := h
      exact .nothing
    · cases h
      exact .nothing
  | select mailbox =>
    rcases r with e | status
    · obtain ⟨-, rfl⟩ := h
      exact .selected none
    · cases h
      exact .selected (some mailbox)
  | fetchUidRange mailbox start since =>
    rcases r with e | reply
    · obtain ⟨-, rfl⟩ := h
      exact .nothing
    · obtain ⟨-, rfl⟩ := h
      exact .fetched
  | command cmd =>
    rcases r with e | u
    · obtain ⟨-, rfl | ⟨sel, s, hsel, hrun, rfl⟩⟩ := h
      · exact .nothing
      · exact .ran hsel hrun
    · obtain ⟨sel, s, hsel, hrun, rfl⟩ := h
      exact .ran hsel hrun
  | idle timeout =>
    rcases r with _ | e | ev
    · obtain ⟨-, rfl⟩ := h
      exact .idleLeft timeout
    · obtain ⟨-, -, rfl⟩ := h
      exact .idled
    · obtain ⟨-, rfl⟩ := h
      exact .idled
  | send mail =>
    rcases r with e | u
    · obtain ⟨-, rfl | rfl⟩ := h
      · exact .nothing
      · exact .sent
    · cases h
      exact .sent
  | state =>
    obtain ⟨-, rfl⟩ := h
    exact .nothing
  | update change => rcases r with e | u <;> cases h <;> exact .updated _
  | currentScript =>
    obtain ⟨-, rfl⟩ := h
    exact .nothing
  | stamp => cases h; exact .nothing
  | evaluate script context => cases h; exact .nothing
  | deleting uid => cases h; exact .nothing
  | executed uid result => cases h; exact .nothing

/-- Selection and state are as before. -/
structure World.Same (w w' : World) : Prop where
  selected : w'.selected = w.selected
  memory : w'.memory = w.memory
  disk : w'.disk = w.disk

theorem World.Drifts.same {w w' : World} (h : w.Drifts w') : w.Same w' :=
  ⟨h.selected, h.memory, h.disk⟩

/-- The calls that may change the selection or the state. -/
def Call.sets : Call → Bool
  | .connect | .select _ | .update _ => true
  | _ => false

theorem World.Answers.same {w w' : World} {c : Call} {r : Reply c} (h : w.Answers c r w')
    (hc : c.sets = false) : w.Same w' := by
  cases h.writes with
  | connectLeft => cases hc
  | connected => cases hc
  | selected sel => cases hc
  | updated disk => cases hc
  | _ => exact ⟨rfl, rfl, rfl⟩

/-- Only commands change the server, and they run in the selected mailbox. -/
theorem World.Answers.server {w w' : World} {c : Call} {r : Reply c} (h : w.Answers c r w') :
    w'.server = w.server ∨ ∃ cmd sel, c = .command cmd ∧ w.selected = some sel ∧
      w.server.run sel cmd = some w'.server := by
  cases h.writes with
  | ran hsel hrun => exact .inr ⟨_, _, rfl, hsel, hrun⟩
  | _ => exact .inl rfl

/-- What every operation on a mailbox keeps is kept by every call. -/
theorem World.Answers.keepsBox {w w' : World} {c : Call} {r : Reply c} (h : w.Answers c r w')
    {rel : Mailbox → Mailbox → Prop} (hrel : Mailbox.Lasting rel) (name : String) :
    Server.Keeps rel w.server w'.server name := by
  rcases h.server with heq | ⟨cmd, sel, -, -, hrun⟩
  · rw [heq]
    exact .refl hrel _ name
  · exact Server.run_keepsBox hrel hrun name

/-- After a state write the memory holds the change, and the disk does if it succeeded. -/
theorem World.Answers.update {w w' : World} {change : StateChange}
    {r : Except StateError Unit} (h : w.Answers (.update change) r w') :
    w'.selected = w.selected ∧ w'.server = w.server ∧ w'.memory = change.apply w.memory ∧
      ((r = .ok () ∧ w'.disk = w'.memory) ∨ ((∃ e, r = .error e) ∧ w'.disk = w.disk)) := by
  cases r with
  | ok u => cases h; exact ⟨rfl, rfl, rfl, .inl ⟨rfl, rfl⟩⟩
  | error e => cases h; exact ⟨rfl, rfl, rfl, .inr ⟨⟨e, rfl⟩, rfl⟩⟩

/-! ## Section 3: Sessions and batches -/

/-- The session has persisted its UIDVALIDITY. -/
structure Session.Live (cfg : Settings) (s : Session) (w : World) : Prop where
  selected : w.selected = some cfg.mailbox
  stored : w.disk = w.memory
  uidvalidity : w.memory.uidvalidity = some s.status.uidvalidity

/-- The FETCH of the monitored mailbox was answered by the server. -/
structure Fetch.Sound (cfg : Settings) (f : Fetch) : Prop where
  selected : f.snapshot.selected = some cfg.mailbox
  lastSeen : f.snapshot.memory.lastSeenUid = some f.bookmark
  fetched : ∃ box, f.snapshot.box = some box ∧
    box.Fetched (MessageProcessor.startUid f.bookmark)
      ((cfg.processor f.caps).changedSince f.snapshot.memory) f.reply

/-- Where the bookmark stands after the messages `done` of a batch. -/
def Batch.reached (b : Batch) (done : List MessageContext) : Nat :=
  done.foldl (fun u msg => max msg.uid u) b.bookmark

/-- The batch has processed `done` and has `rest` left. -/
structure Batch.At (cfg : Settings) (b : Batch) (done rest : List MessageContext) (w : World)
    (tr : History) : Prop where
  live : b.toSession.Live cfg w
  bookmark : w.memory.lastSeenUid = some (b.reached done)
  messages : done ++ rest = b.messages cfg
  fetch : b.toFetch.Sound cfg
  last : lastFetch tr = some b.snapshot
  processed : ∀ msg ∈ done, Processed (sinceFetch tr) msg

section Batch

variable {cfg : Settings} {s : Session} {b : Batch} {done rest : List MessageContext}
  {msg : MessageContext} {w w' : World} {tr : History}

@[simp] theorem reached_nil (b : Batch) : b.reached [] = b.bookmark := rfl

@[simp] theorem reached_concat (b : Batch) (done : List MessageContext) (msg : MessageContext) :
    b.reached (done ++ [msg]) = max msg.uid (b.reached done) := by
  simp [Batch.reached]

theorem bookmark_le_reached (b : Batch) (done : List MessageContext) :
    b.bookmark ≤ b.reached done := by
  induction done using List.reverseRecOn with
  | nil => exact le_rfl
  | append_singleton done msg ih =>
    rw [reached_concat]
    exact ih.trans (le_max_right _ _)

theorem uid_le_reached (b : Batch) (h : msg ∈ done) : msg.uid ≤ b.reached done := by
  induction done using List.reverseRecOn with
  | nil => cases h
  | append_singleton done last ih =>
    rw [reached_concat]
    rcases List.mem_append.mp h with hmem | hlast
    · exact (ih hmem).trans (le_max_right _ _)
    · rw [List.mem_singleton.mp hlast]
      exact le_max_left _ _

theorem Session.Live.same (h : s.Live cfg w) (hsame : w.Same w') : s.Live cfg w' where
  selected := hsame.selected.trans h.selected
  stored := by rw [hsame.disk, hsame.memory, h.stored]
  uidvalidity := by rw [hsame.memory, h.uidvalidity]

theorem Batch.At.same (h : b.At cfg done rest w tr) (hsame : w.Same w') :
    b.At cfg done rest w' tr :=
  { h with
    live := h.live.same hsame
    bookmark := by rw [hsame.memory, h.bookmark] }

/-- The message at hand is one of the batch. -/
theorem Batch.At.mem_messages (h : b.At cfg done (msg :: rest) w tr) : msg ∈ b.messages cfg :=
  h.messages ▸ List.mem_append_right done List.mem_cons_self

/-- Any call but FETCH only adds to what is known of the batch. -/
theorem Batch.At.called (h : b.At cfg done rest w tr) (w₀ : World) {c : Call} (r : Reply c)
    (hc : c.isFetch = false) : b.At cfg done rest w (.called w₀ c r :: tr) :=
  { h with
    last := by rw [lastFetch_called hc, h.last]
    processed := fun msg hmsg => by
      rw [sinceFetch_called hc]
      exact (h.processed msg hmsg).mono (List.subset_cons_self _ _) }

end Batch

/-! ## Section 4: The facts of each phase -/

/-- What is known when the daemon is in the phase. -/
def Phase.Sound (cfg : Settings) (w : World) (tr : History) : Phase → Prop
  | .offline | .connected | .capable _ => True
  | .selected _ => w.selected = some cfg.mailbox
  | .stopped cached server => cached ≠ server ∧ w.memory.uidvalidity = some cached
  | .checked s => w.selected = some cfg.mailbox ∧
      ∀ cached, w.memory.uidvalidity = some cached → cached = s.status.uidvalidity
  | .validated s => s.Live cfg w
  | .seeding s => s.Live cfg w ∧ w.memory.lastSeenUid = none
  | .ready s => s.Live cfg w ∧ ∃ uid, w.memory.lastSeenUid = some uid
  | .ranged s state bookmark => s.Live cfg w ∧ w.memory = state ∧ state.lastSeenUid = some bookmark
  | .fetched f => f.toSession.Live cfg w ∧ w.memory.lastSeenUid = some f.bookmark ∧
      f.Sound cfg ∧ lastFetch tr = some f.snapshot
  | .evaluating b done msg rest => b.At cfg done (msg :: rest) w tr
  | .executing b done msg rest _ ops => b.At cfg done (msg :: rest) w tr ∧
      Evaluated (sinceFetch tr) msg ∧ ∀ op ∈ ops, op.About msg.uid
  | .advancing b done msg rest => b.At cfg done (msg :: rest) w tr ∧ Processed (sinceFetch tr) msg
  | .idling b done allOk => ∃ rest, b.At cfg done rest w tr ∧ (allOk = true → rest = []) ∧
      (allOk = false → Failed (sinceFetch tr))

section Sound

variable {cfg : Settings} {ph : Phase} {w w' : World} {tr : History}

/-- The facts are about the selection and the state only. -/
theorem Phase.Sound.same (h : ph.Sound cfg w tr) (hsame : w.Same w') : ph.Sound cfg w' tr := by
  cases ph with
  | offline => trivial
  | connected => trivial
  | capable caps => trivial
  | selected s => exact hsame.selected.trans h
  | stopped cached server => exact ⟨h.1, by rw [hsame.memory]; exact h.2⟩
  | checked s => exact ⟨hsame.selected.trans h.1, by rw [hsame.memory]; exact h.2⟩
  | validated s => exact Session.Live.same h hsame
  | seeding s => exact ⟨h.1.same hsame, by rw [hsame.memory]; exact h.2⟩
  | ready s => exact ⟨h.1.same hsame, by rw [hsame.memory]; exact h.2⟩
  | ranged s state bookmark => exact ⟨h.1.same hsame, by rw [hsame.memory]; exact h.2⟩
  | fetched f =>
    exact ⟨h.1.same hsame, by rw [hsame.memory]; exact h.2.1, h.2.2⟩
  | evaluating b done msg rest => exact Batch.At.same h hsame
  | executing b done msg rest actions ops => exact ⟨h.1.same hsame, h.2⟩
  | advancing b done msg rest => exact ⟨h.1.same hsame, h.2⟩
  | idling b done allOk => exact h.imp fun _ hrest => ⟨hrest.1.same hsame, hrest.2⟩

/-- The start of a batch, or of its next message. -/
theorem sound_enter {b : Batch} {done rest : List MessageContext}
    (h : b.At cfg done rest w tr) : (Phase.enter b done rest).Sound cfg w tr := by
  cases rest with
  | nil => exact ⟨[], h, fun _ => rfl, by simp⟩
  | cons msg rest => exact h

/-- A call that operations make is no FETCH. -/
theorem isFetch_of_nextCall {ops : List Op} {c : Call} (h : nextCall ops = some c) :
    c.isFetch = false := by
  have hop := ofOp_of_nextCall h
  cases c <;> first | rfl | cases hop

/-- A call that operations make does not set the state. -/
theorem sets_of_nextCall {ops : List Op} {c : Call} (h : nextCall ops = some c) :
    c.sets = false := by
  have hop := ofOp_of_nextCall h
  cases c <;> first | rfl | cases hop

/-- The next command of operations about a message is about it. -/
theorem about_of_nextCall {uid : Nat} {ops : List Op} (h : ∀ op ∈ ops, op.About uid)
    {cmd : ImapCommand} (hnext : nextCall ops = some (.command cmd)) : cmd.About uid := by
  cases ops with
  | nil => cases hnext
  | cons op rest =>
    have hop := h op List.mem_cons_self
    cases op <;> cases hnext <;> exact hop cmd rfl

/-- What is left of operations about a message is about it. -/
theorem about_proceed {uid : Nat} {ops : List Op} (h : ∀ op ∈ ops, op.About uid) (c : Call)
    (r : Reply c) : ∀ op ∈ proceed ops c r, op.About uid := by
  intro op hop
  unfold proceed at hop
  split at hop
  · exact h op (List.mem_cons_of_mem _ hop)
  · rw [List.mem_singleton.mp hop]
    exact about_of_command?_none rfl
  · exact h op (List.mem_cons_of_mem _ hop)
  · exact h op (List.mem_cons_of_mem _ hop)
  · rw [List.mem_singleton.mp hop]
    exact about_of_command?_none rfl
  · rcases List.mem_cons.mp hop with rfl | hop
    · exact about_of_command?_none rfl
    · exact h op (List.mem_cons_of_mem _ hop)
  · exact h op (List.mem_cons_of_mem _ hop)
  · exact h op hop

/-- Every call of the protocol leads to the facts of the next phase. -/
theorem sound_call (h : ph.Sound cfg w tr) {c : Call} {r : Reply c} (hallow : ph.Allows cfg c)
    (hans : w.Answers c r w') : (ph.next cfg w c r).Sound cfg w' (.called w c r :: tr) := by
  have hmoves := moves_next (w := w) (r := r) hallow
  generalize ph.next cfg w c r = ph' at hmoves ⊢
  cases hmoves with
  | offline => trivial
  | connected => trivial
  | capable hidle => trivial
  | selected status =>
    cases hans
    rfl
  | stopped hcached hne =>
    obtain ⟨rfl, rfl⟩ := hans
    exact ⟨hne, hcached⟩
  | checked hmatch =>
    obtain ⟨rfl, rfl⟩ := hans
    exact ⟨h, hmatch⟩
  | validated s =>
    cases hans
    exact ⟨h.1, rfl, rfl⟩
  | unseeded hnone =>
    obtain ⟨rfl, rfl⟩ := hans
    exact ⟨h, hnone⟩
  | resumed hsome =>
    obtain ⟨rfl, rfl⟩ := hans
    exact ⟨h, _, hsome⟩
  | seeded s =>
    cases hans
    exact ⟨⟨h.1.selected, rfl, h.1.uidvalidity⟩, _, rfl⟩
  | ranged huid =>
    obtain ⟨rfl, rfl⟩ := hans
    exact ⟨h.1, rfl, huid⟩
  | fetched reply =>
    obtain ⟨hlive, rfl, hbookmark⟩ := h
    obtain ⟨hbox, rfl⟩ := hans
    exact ⟨⟨hlive.selected, hlive.stored, hlive.uidvalidity⟩, hbookmark,
      ⟨hlive.selected, hbookmark, hbox⟩, rfl⟩
  | taken script =>
    obtain ⟨rfl, rfl⟩ := hans
    obtain ⟨hlive, hbookmark, hfetch, hlast⟩ := h
    refine sound_enter ⟨hlive, hbookmark, rfl, hfetch, ?_, by simp⟩
    rw [lastFetch_called rfl, hlast]
  | evaluated actions =>
    have hat := Batch.At.same h (hans.same rfl)
    refine ⟨hat.called w _ rfl, ?_, fun op hop => operations_about hop⟩
    rw [sinceFetch_called rfl]
    exact ⟨_, _, _, List.mem_cons_self⟩
  | unevaluated e =>
    refine ⟨_, (Batch.At.same h (hans.same rfl)).called w _ rfl, by simp, fun _ => ?_⟩
    rw [sinceFetch_called rfl]
    exact .inl ⟨_, _, _, _, List.mem_cons_self⟩
  | performed hnext =>
    have hfetch := isFetch_of_nextCall hnext
    obtain ⟨hat, hevaluated, habout⟩ := h
    have hsame := hans.same (sets_of_nextCall hnext)
    refine ⟨(hat.same hsame).called w r hfetch, ?_, about_proceed habout c r⟩
    rw [sinceFetch_called hfetch]
    exact hevaluated.mono (List.subset_cons_self _ _)
  | executed =>
    obtain ⟨hat, hevaluated, -⟩ := h
    refine ⟨(hat.same (hans.same rfl)).called w _ rfl, ?_⟩
    rw [sinceFetch_called rfl]
    exact ⟨hevaluated.mono (List.subset_cons_self _ _), w, List.mem_cons_self⟩
  | unexecuted e =>
    obtain ⟨hat, hevaluated, -⟩ := h
    refine ⟨_, (hat.same (hans.same rfl)).called w _ rfl, by simp, fun _ => ?_⟩
    rw [sinceFetch_called rfl]
    exact .inr ⟨_, _, _, List.mem_cons_self⟩
  | advanced =>
    obtain ⟨hat, hprocessed⟩ := h
    cases hans
    refine sound_enter ⟨⟨hat.live.selected, rfl, hat.live.uidvalidity⟩, ?_, ?_, hat.fetch, ?_, ?_⟩
    · rw [reached_concat, apply_advance_lastSeenUid, hat.bookmark, Option.getD_some]
    · rw [List.append_assoc]
      exact hat.messages
    · rw [lastFetch_called rfl, hat.last]
    · -- the message at hand joins those that were processed before
      intro m hm
      rw [sinceFetch_called rfl]
      rcases List.mem_append.mp hm with hdone | hmsg
      · exact (hat.processed m hdone).mono (List.subset_cons_self _ _)
      · rw [List.mem_singleton.mp hmsg]
        exact hprocessed.mono (List.subset_cons_self _ _)
  | woken =>
    obtain ⟨rest, hat, -⟩ := h
    have hsame := hans.same rfl
    exact ⟨hat.live.same hsame, _, by rw [hsame.memory, hat.bookmark]⟩

end Sound

/-- The facts of its phase hold wherever the daemon comes, under changing settings as well. -/
theorem serves_sound {S : Surroundings Call Reply World} {cfg : Settings} {w₀ : World}
    {x : Config Call Reply World (Except CoreError Unit)} (hS : Admissible S)
    (hx : Serves S w₀ cfg x) : (phaseOf cfg x.trace).Sound cfg x.world x.trace := by
  refine serves_invariant (I := fun cfg w tr => (phaseOf cfg tr).Sound cfg w tr) hx ?_ ?_ ?_ ?_
  · intro cfg
    trivial
  · intro cfg p w tr c r w' _ h hallow hans
    exact sound_call h hallow (hS.answers hans)
  · intro cfg w w' tr h hdrift
    exact h.same (hS.drifts hdrift).same
  · intro cfg cfg' w w' tr _ _
    trivial

theorem daemon_sound {S : Surroundings Call Reply World} {cfg : Settings} {w₀ w : World}
    {tr : History} (hS : Admissible S) (hx : Comes S cfg w₀ w tr) :
    (phaseOf cfg tr).Sound cfg w tr := by
  obtain ⟨p, hx⟩ := hx
  exact serves_sound hS hx.lives

end ImapSieve
