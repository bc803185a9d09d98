import ImapSieve.Daemon.Prefix
import Mathlib.Data.List.TakeWhile

/-!
# The Order of the Answer

A server may answer a FETCH in any order. `run_batch` takes the first messages of the answer,
stops at the first that fails, and moves the bookmark to the greatest UID that it has processed.
Each of these three depends on the order as soon as one ordering leaves a message out.

The messages that fail are a set: in all runs that are compared, evaluation or execution fails
for these and for no others.
-/

namespace ImapSieve

open Effects

/-! ## Section 1: Batches that answer in a given order -/

/-- The FETCH gives these messages in this order, the messages that fail are those of the set,
and the state can be written. -/
def Ordered (fails : Nat → Bool) (messages : List MessageContext) : (c : Call) → Reply c → Prop
  | .fetchUidRange _ _ _, r => r = .ok messages
  | .evaluate _ msg, .error _ => fails msg.uid = true
  | .executed uid result, _ => fails uid = !result.isOk
  | .update _, r => r = .ok ()
  | _, _ => True

/-- The runs of a batch that is answered so. -/
def orderedWorld (fails : Nat → Bool) (messages : List MessageContext) :
    Surroundings Call Reply World :=
  openWorld.under { call := fun _ c r _ => Ordered fails messages c r }

/-- `run_batch` can return so when the messages come in this order. -/
def Returns (p : MessageProcessor) (fails : Nat → Bool) (w : World)
    (messages : List MessageContext) (result : Except CoreError (List ProcessingResult))
    (w' : World) : Prop :=
  ∃ tr, Steps (orderedWorld fails messages) ⟨p.runBatch.run, w, []⟩ ⟨.ret result, w', tr⟩

/-- The UIDs of the messages that were processed, with success or not. -/
def processedUids : Except CoreError (List ProcessingResult) → List Nat
  | .ok results => results.map ProcessingResult.uid
  | .error _ => []

/-- The UIDs of the messages that were processed with success. -/
def successfulUids : Except CoreError (List ProcessingResult) → List Nat
  | .ok results => (results.filter fun r => r.status = .ok).map ProcessingResult.uid
  | .error _ => []

/-! ## Section 2: What a batch comes to -/

/-- The messages up to the first that fails, and this one. -/
def visits (fails : Nat → Bool) : List MessageContext → List MessageContext
  | [] => []
  | msg :: rest => if fails msg.uid then [msg] else msg :: visits fails rest

/-- The messages before the first that fails. -/
def successes (fails : Nat → Bool) (messages : List MessageContext) : List MessageContext :=
  messages.takeWhile fun msg => !fails msg.uid

/-- The batch processed the visits, and the bookmark is at the greatest of the successes. -/
structure ComesTo (fails : Nat → Bool) (u : Nat) (messages : List MessageContext)
    (result : Except CoreError (List ProcessingResult)) (w' : World) : Prop where
  processed : processedUids result = (visits fails messages).map MessageContext.uid
  successful : successfulUids result = (successes fails messages).map MessageContext.uid
  bookmark : w'.memory.lastSeenUid =
    some (((successes fails messages).map MessageContext.uid).foldl max u)

section Runs

variable {p : MessageProcessor} {script : CompiledScript} {fails : Nat → Bool} {u : Nat}
  {messages batch : List MessageContext} {results : List ProcessingResult} {w w' : World}
  {tr tr' : History} {result : Except CoreError (List ProcessingResult)}

/-- The fate of a visited message says whether it is one of those that fail. -/
theorem fate_ordered {msg : MessageContext} {calls : List (Entry Call Reply World)} {fate : Fate}
    (h : Visit p script msg calls fate)
    (hordered : ∀ w c r, .called w c r ∈ calls → Ordered fails messages c r) :
    (fails msg.uid = false ∧ ∃ actions, fate = .done ⟨msg.uid, actions, .ok⟩) ∨
      (fails msg.uid = true ∧
        ∃ actions status, status ≠ .ok ∧ fate = .failed ⟨msg.uid, actions, status⟩) := by
  cases h with
  | @unevaluated w e =>
    exact .inr ⟨hordered w (.evaluate script msg) (.error e) (by simp), _, _, by simp, rfl⟩
  | @unexecuted w w' actions calls e hexec =>
    exact .inr ⟨hordered w' (.executed msg.uid (.error e)) () (by simp), _, _, by simp, rfl⟩
  | @unwritten w w' w'' actions calls e hexec =>
    cases hordered w'' (.update (.advance msg.uid)) (.error e) (by simp)
  | done w w' w'' hexec =>
    exact .inl ⟨hordered w' (.executed msg.uid (.ok ())) () (by simp), _, rfl⟩

/-- The loop processes the messages up to the first that fails. -/
theorem steps_ordered (hu : w.memory.lastSeenUid = some u)
    (h : Steps openWorld ⟨(p.processMessages script batch results).run, w, tr⟩
      ⟨.ret result, w', tr'⟩)
    (hordered : ∀ w c r, .called w c r ∈ tr' → Ordered fails messages c r) :
    ∃ rest, result = .ok (results ++ rest) ∧ ComesTo fails u batch (.ok rest) w' := by
  induction batch generalizing results w tr u with
  | nil =>
    obtain ⟨rfl, -, hmemory, -⟩ := steps_returned h
    exact ⟨[], by rw [List.append_nil], rfl, rfl, by rw [hmemory, hu]; rfl⟩
  | cons msg batch ih =>
    obtain ⟨calls, fate, w₁, hvisit, hleaves, h⟩ := steps_visit h
    have hcalls : ∀ w c r, .called w c r ∈ calls → Ordered fails messages c r := by
      intro w c r hmem
      exact hordered w c r (h.trace_suffix.subset
        (List.mem_append_left _ (List.mem_reverse.mpr hmem)))
    rcases fate_ordered hvisit hcalls with ⟨hgood, actions, rfl⟩ | ⟨hbad, actions, status, hne, rfl⟩
    · -- the loop goes on with the rest, from the greater of the bookmark and this UID
      obtain ⟨hmemory, -⟩ := hleaves
      rw [advance_apply hu] at hmemory
      obtain ⟨rest, rfl, hprocessed, hsuccessful, hbookmark⟩ :=
        ih (u := max u msg.uid) (by rw [hmemory]; rfl) h
      refine ⟨⟨msg.uid, actions, .ok⟩ :: rest, by simp, ?_, ?_, ?_⟩
      · simpa [processedUids, visits, hgood] using hprocessed
      · simpa [successfulUids, successes, hgood] using hsuccessful
      · simpa [successes, hgood] using hbookmark
    · -- the loop breaks
      obtain ⟨rfl, -, hmemory, -⟩ := steps_returned h
      refine ⟨[⟨msg.uid, actions, status⟩], rfl, ?_, ?_, ?_⟩
      · simp [processedUids, visits, hbad]
      · simp [successfulUids, successes, hbad, hne]
      · rw [hmemory, hleaves.1, hu]
        simp [successes, hbad]

/-- What is returned is what the first messages of the answer come to. -/
theorem Returns.comesTo (hu : w.memory.lastSeenUid = some u)
    (h : Returns p fails w messages result w') :
    ComesTo fails u (messages.take p.batchSize) result w' := by
  obtain ⟨tr, h⟩ := h
  have hordered : ∀ w c r, .called w c r ∈ tr → Ordered fails messages c r :=
    h.called_of_under (fun _ _ _ _ hreg => hreg) (by simp)
  have hdrift : ∀ w₁ w₂ : World, openWorld.drifts w₁ w₂ → SameState w w₁ → SameState w w₂ :=
    fun w₁ w₂ hd hsame => hsame.trans hd
  replace h := h.of_under
  rw [run_runBatch] at h
  obtain ⟨w₁, state, w₂, hsame₁, ⟨hstate, hsame₂⟩, h⟩ := steps_call_ret ⟨rfl, rfl⟩ hdrift h
  obtain rfl : state = w.memory := hstate.trans hsame₁.1
  rw [afterState, hu] at h
  obtain ⟨w₃, fetched, w₄, hsame₃, hans₃, h⟩ := steps_call_ret (hsame₁.trans hsame₂) hdrift h
  have hsame₄ : SameState w w₄ := hsame₃.trans hans₃
  -- the answer is the given one
  obtain rfl : fetched = .ok messages :=
    hordered w₃ (.fetchUidRange _ _ _) fetched (h.trace_suffix.subset List.mem_cons_self)
  obtain ⟨w₅, script, w₆, hsame₅, hans₅, h⟩ := steps_call_ret hsame₄ hdrift h
  have hsame₆ : SameState w w₆ := hsame₅.trans hans₅
  obtain ⟨rest, rfl, hcomes⟩ := steps_ordered (hsame₆.1 ▸ hu) h hordered
  exact hcomes

theorem exists_loop (p : MessageProcessor) (script : CompiledScript) (fails : Nat → Bool)
    (messages batch : List MessageContext) (results : List ProcessingResult) (w : World)
    (tr : History) :
    ∃ result w' tr', Steps (orderedWorld fails messages)
      ⟨(p.processMessages script batch results).run, w, tr⟩ ⟨.ret result, w', tr'⟩ := by
  induction batch generalizing results w tr with
  | nil => exact ⟨_, w, tr, .refl⟩
  | cons msg batch ih =>
    rw [run_processMessages_cons]
    cases hfails : fails msg.uid with
    | true =>
      -- the evaluation fails
      have hevaluate : (orderedWorld fails messages).answers w (.evaluate script msg)
          (.error (.runtime "")) w := ⟨⟨rfl, rfl⟩, hfails⟩
      exact ⟨_, w, _, .single (.call hevaluate)⟩
    | false =>
      -- the message is kept
      let s := (StateChange.advance msg.uid).apply w.memory
      have hevaluate : (orderedWorld fails messages).answers w (.evaluate script msg)
          (.ok [.keep]) w := ⟨⟨rfl, rfl⟩, trivial⟩
      have hexecuted : (orderedWorld fails messages).answers w (.executed msg.uid (.ok ())) () w :=
        ⟨⟨rfl, rfl⟩, hfails⟩
      have hupdate : (orderedWorld fails messages).answers w (.update (.advance msg.uid))
          (.ok ()) { w with memory := s, disk := s } := ⟨⟨rfl, rfl⟩, rfl⟩
      obtain ⟨result, w', tr', h⟩ := ih (results ++ [⟨msg.uid, [.keep], .ok⟩]) _ _
      exact ⟨result, w', tr',
        .head (.call hevaluate) (.head (.call hexecuted) (.head (.call hupdate) h))⟩

/-- Whatever the answer, there is such a return. -/
theorem exists_returns (p : MessageProcessor) (fails : Nat → Bool) {w : World}
    (messages : List MessageContext) (hu : w.memory.lastSeenUid = some u) :
    ∃ result w', Returns p fails w messages result w' := by
  have hstate : (orderedWorld fails messages).answers w .state w.memory w :=
    ⟨⟨rfl, rfl, rfl⟩, trivial⟩
  have hfetch : (orderedWorld fails messages).answers w (.fetchUidRange p.mailbox
      (MessageProcessor.startUid u) (p.changedSince w.memory)) (.ok messages) w :=
    ⟨⟨rfl, rfl⟩, rfl⟩
  have hscript : (orderedWorld fails messages).answers w .currentScript w.script w :=
    ⟨⟨rfl, rfl⟩, trivial⟩
  obtain ⟨result, w', tr, h⟩ :=
    exists_loop p w.script fails messages (messages.take p.batchSize) [] w _
  refine ⟨result, w', tr, ?_⟩
  rw [run_runBatch]
  refine .head (.call hstate) ?_
  rw [afterState, hu]
  exact .head (.call hfetch) (.head (.call hscript) h)

end Runs

/-! ## Section 3: When the order does not matter -/

/-- The batch processes the same messages in whatever order they come, and the bookmark is the
same; no message stays below it that was not processed with success. The given function says
which messages count as processed. -/
structure OrderFree (p : MessageProcessor) (fails : Nat → Bool) (pending : List MessageContext)
    (w : World) (uids : Except CoreError (List ProcessingResult) → List Nat) : Prop where
  same : ∀ l₁ l₂ r₁ r₂ w₁ w₂, l₁.Perm pending → l₂.Perm pending → Returns p fails w l₁ r₁ w₁ →
    Returns p fails w l₂ r₂ w₂ →
    (∀ uid, uid ∈ uids r₁ ↔ uid ∈ uids r₂) ∧ w₁.memory.lastSeenUid = w₂.memory.lastSeenUid
  unskipped : ∀ l r w', l.Perm pending → Returns p fails w l r w' → ∀ msg ∈ pending,
    msg.uid ∉ successfulUids r → ∀ last, w'.memory.lastSeenUid = some last → last < msg.uid

/-- No message fails, and all fit into the batch. -/
def AllGo (p : MessageProcessor) (fails : Nat → Bool) (pending : List MessageContext) : Prop :=
  (∀ msg ∈ pending, fails msg.uid = false) ∧ pending.length ≤ p.batchSize

section Order

variable {p : MessageProcessor} {fails : Nat → Bool} {pending l : List MessageContext} {u : Nat}
  {w : World} {uids : Except CoreError (List ProcessingResult) → List Nat}
  {part : List MessageContext → List MessageContext}

theorem visits_isPrefix (fails : Nat → Bool) (l : List MessageContext) : visits fails l <+: l := by
  induction l with
  | nil => exact List.prefix_rfl
  | cons msg rest ih =>
    rw [visits]
    split
    · exact ⟨rest, rfl⟩
    · exact List.cons_prefix_cons.mpr ⟨rfl, ih⟩

theorem visits_eq_self (h : ∀ msg ∈ l, fails msg.uid = false) : visits fails l = l := by
  induction l with
  | nil => rfl
  | cons msg rest ih =>
    rw [visits, h msg List.mem_cons_self, if_neg Bool.false_ne_true,
      ih fun m hm => h m (List.mem_cons_of_mem _ hm)]

theorem successes_eq_self (h : ∀ msg ∈ l, fails msg.uid = false) : successes fails l = l :=
  List.takeWhile_eq_self_iff.mpr fun msg hmsg => by rw [h msg hmsg, Bool.not_false]

theorem successes_eq_nil (h : ∀ msg ∈ l, fails msg.uid = true) : successes fails l = [] := by
  cases l with
  | nil => rfl
  | cons msg rest => simp [successes, h msg List.mem_cons_self]

/-- The greatest UID does not depend on the order. -/
theorem foldl_max_perm {l₁ l₂ : List Nat} (h : l₁.Perm l₂) (u : Nat) :
    l₁.foldl max u = l₂.foldl max u :=
  h.foldl_eq' (fun x _ y _ z => by omega) u

/-- In all orderings none goes through, or in all of them all do. -/
theorem orderFree_of_successes (hu : w.memory.lastSeenUid = some u)
    (habove : ∀ msg ∈ pending, u < msg.uid)
    (hsame : ∀ l₁ l₂ r₁ r₂ w₁ w₂, l₁.Perm pending → l₂.Perm pending →
      Returns p fails w l₁ r₁ w₁ → Returns p fails w l₂ r₂ w₂ →
      ∀ uid, uid ∈ uids r₁ ↔ uid ∈ uids r₂)
    (h : (∀ l : List MessageContext, l.Perm pending →
        successes fails (l.take p.batchSize) = []) ∨
      ∀ l : List MessageContext, l.Perm pending → successes fails (l.take p.batchSize) = l) :
    OrderFree p fails pending w uids := by
  refine ⟨fun l₁ l₂ r₁ r₂ w₁ w₂ hl₁ hl₂ h₁ h₂ => ⟨hsame l₁ l₂ r₁ r₂ w₁ w₂ hl₁ hl₂ h₁ h₂, ?_⟩, ?_⟩
  · rw [(h₁.comesTo hu).bookmark, (h₂.comesTo hu).bookmark]
    rcases h with hnone | hall
    · rw [hnone l₁ hl₁, hnone l₂ hl₂]
    · rw [hall l₁ hl₁, hall l₂ hl₂]
      exact congrArg some (foldl_max_perm ((hl₁.trans hl₂.symm).map _) u)
  · intro l r w' hl hret msg hmsg hnot last hlast
    rw [(hret.comesTo hu).bookmark] at hlast
    rw [(hret.comesTo hu).successful] at hnot
    rcases h with hnone | hall
    · -- the bookmark stays
      rw [hnone l hl] at hlast
      cases hlast
      exact habove msg hmsg
    · rw [hall l hl] at hnot
      exact absurd (List.mem_map_of_mem (hl.symm.subset hmsg)) hnot

/-- A message that would be processed as the first of an answer is processed in every order. -/
theorem OrderFree.mem_part (hfree : OrderFree p fails pending w uids)
    (hu : w.memory.lastSeenUid = some u)
    (huids : ∀ {l r w'}, Returns p fails w l r w' →
      uids r = (part (l.take p.batchSize)).map MessageContext.uid)
    {msg : MessageContext} (hmsg : msg ∈ pending)
    (hfirst : ∀ rest : List MessageContext, msg ∈ part ((msg :: rest).take p.batchSize))
    (hl : l.Perm pending) : msg.uid ∈ (part (l.take p.batchSize)).map MessageContext.uid := by
  obtain ⟨r₁, w₁, h₁⟩ := exists_returns p fails (msg :: pending.erase msg) hu
  obtain ⟨r₂, w₂, h₂⟩ := exists_returns p fails l hu
  have hperm : (msg :: pending.erase msg).Perm pending := (List.perm_cons_erase hmsg).symm
  have hsame := (hfree.same _ _ _ _ _ _ hperm hl h₁ h₂).1 msg.uid
  rw [huids h₁, huids h₂] at hsame
  exact hsame.mp (List.mem_map_of_mem (hfirst _))

/-- UIDs are not given twice. -/
theorem not_mem_of_split (before after : List MessageContext) {msg : MessageContext}
    (hnodup : (pending.map MessageContext.uid).Nodup)
    (hperm : (before ++ msg :: after).Perm pending) :
    msg.uid ∉ before.map MessageContext.uid := by
  intro hmem
  have hsplit : ((before ++ msg :: after).map MessageContext.uid).Nodup :=
    (hperm.map _).nodup_iff.mpr hnodup
  rw [List.map_append] at hsplit
  exact (List.nodup_append.mp hsplit).2.2 _ hmem _ List.mem_cons_self rfl

/-- Where not all go through, some message fails, or some is not among the first. -/
theorem exists_left_out (hnodup : (pending.map MessageContext.uid).Nodup)
    (hnot : ¬ AllGo p fails pending) :
    (∃ bad ∈ pending, fails bad.uid = true) ∨
      ((∀ msg ∈ pending, fails msg.uid = false) ∧
        ∃ msg ∈ pending, msg.uid ∉ (pending.take p.batchSize).map MessageContext.uid) := by
  by_cases hbad : ∃ bad ∈ pending, fails bad.uid = true
  · exact .inl hbad
  · have hgood : ∀ msg ∈ pending, fails msg.uid = false := fun msg hmsg =>
      Bool.eq_false_iff.mpr fun h => hbad ⟨msg, hmsg, h⟩
    have hlt : p.batchSize < pending.length :=
      Nat.lt_of_not_le fun hle => hnot ⟨hgood, hle⟩
    -- the first message beyond the batch
    refine .inr ⟨hgood, pending[p.batchSize], List.getElem_mem hlt, ?_⟩
    refine not_mem_of_split _ (pending.drop (p.batchSize + 1)) hnodup ?_
    rw [List.getElem_cons_drop, List.take_append_drop]

/-- In an ordering of the messages, no other ones. -/
theorem take_subset {l : List MessageContext} (hl : l.Perm pending) :
    ∀ msg ∈ l.take p.batchSize, msg ∈ pending :=
  fun _ hmsg => hl.subset (List.mem_of_mem_take hmsg)

theorem AllGo.take_eq (h : AllGo p fails pending) (hl : l.Perm pending) :
    l.take p.batchSize = l :=
  List.take_of_length_le (hl.length_eq.trans_le h.2)

theorem AllGo.good (h : AllGo p fails pending) (hl : l.Perm pending) :
    ∀ msg ∈ l, fails msg.uid = false :=
  fun msg hmsg => h.1 msg (hl.subset hmsg)

theorem orderFree_successful (hu : w.memory.lastSeenUid = some u)
    (habove : ∀ msg ∈ pending, u < msg.uid)
    (h : p.batchSize = 0 ∨ (∀ msg ∈ pending, fails msg.uid = true) ∨ AllGo p fails pending) :
    OrderFree p fails pending w successfulUids := by
  have hsuccesses : (∀ l : List MessageContext, l.Perm pending →
      successes fails (l.take p.batchSize) = []) ∨
        ∀ l : List MessageContext, l.Perm pending → successes fails (l.take p.batchSize) = l := by
    rcases h with hzero | hall | hgo
    · exact .inl fun l _ => by rw [hzero]; rfl
    · exact .inl fun l hl => successes_eq_nil fun msg hmsg => hall msg (take_subset hl msg hmsg)
    · exact .inr fun l hl => by rw [hgo.take_eq hl, successes_eq_self (hgo.good hl)]
  refine orderFree_of_successes hu habove (fun l₁ l₂ r₁ r₂ w₁ w₂ hl₁ hl₂ h₁ h₂ uid => ?_) hsuccesses
  rw [(h₁.comesTo hu).successful, (h₂.comesTo hu).successful]
  rcases hsuccesses with hnone | hall
  · rw [hnone l₁ hl₁, hnone l₂ hl₂]
  · rw [hall l₁ hl₁, hall l₂ hl₂]
    exact ((hl₁.trans hl₂.symm).map _).mem_iff

/-- At most one message has one ordering. -/
theorem perm_eq_of_length_le (hlen : pending.length ≤ 1) (hl : l.Perm pending) : l = pending := by
  cases pending with
  | nil => exact List.perm_nil.mp hl
  | cons msg rest =>
    obtain rfl : rest = [] := List.length_eq_zero_iff.mp (by simpa using hlen)
    exact List.perm_singleton.mp hl

theorem orderFree_processed (hu : w.memory.lastSeenUid = some u)
    (habove : ∀ msg ∈ pending, u < msg.uid)
    (h : p.batchSize = 0 ∨ pending.length ≤ 1 ∨ AllGo p fails pending) :
    OrderFree p fails pending w processedUids := by
  rcases h with hzero | hlen | hgo
  · -- nothing is processed
    refine orderFree_of_successes hu habove (fun l₁ l₂ r₁ r₂ w₁ w₂ _ _ h₁ h₂ uid => ?_)
      (.inl fun l _ => by rw [hzero]; rfl)
    rw [(h₁.comesTo hu).processed, (h₂.comesTo hu).processed, hzero]
    exact Iff.rfl
  · -- there is one ordering only, and its message goes through or not
    refine orderFree_of_successes hu habove (fun l₁ l₂ r₁ r₂ w₁ w₂ hl₁ hl₂ h₁ h₂ uid => ?_) ?_
    · rw [(h₁.comesTo hu).processed, (h₂.comesTo hu).processed, perm_eq_of_length_le hlen hl₁,
        perm_eq_of_length_le hlen hl₂]
    · have hprefix : successes fails (pending.take p.batchSize) <+: pending :=
        (List.takeWhile_prefix _).trans (List.take_prefix _ _)
      rcases Nat.eq_zero_or_pos (successes fails (pending.take p.batchSize)).length with hnil | hpos
      · refine .inl fun l hl => ?_
        rw [perm_eq_of_length_le hlen hl]
        exact List.length_eq_zero_iff.mp hnil
      · refine .inr fun l hl => ?_
        rw [perm_eq_of_length_le hlen hl]
        exact hprefix.eq_of_length (by have := hprefix.length_le; omega)
  · -- all are processed
    refine orderFree_of_successes hu habove (fun l₁ l₂ r₁ r₂ w₁ w₂ hl₁ hl₂ h₁ h₂ uid => ?_)
      (.inr fun l hl => by rw [hgo.take_eq hl, successes_eq_self (hgo.good hl)])
    rw [(h₁.comesTo hu).processed, (h₂.comesTo hu).processed, hgo.take_eq hl₁, hgo.take_eq hl₂,
      visits_eq_self (hgo.good hl₁), visits_eq_self (hgo.good hl₂)]
    exact ((hl₁.trans hl₂.symm).map _).mem_iff

theorem of_orderFree_processed (hu : w.memory.lastSeenUid = some u)
    (hnodup : (pending.map MessageContext.uid).Nodup)
    (h : OrderFree p fails pending w processedUids) :
    p.batchSize = 0 ∨ pending.length ≤ 1 ∨ AllGo p fails pending := by
  by_contra hcontra
  obtain ⟨hzero, hlen, hnot⟩ := not_or.mp hcontra |>.imp id not_or.mp
  obtain ⟨n, hn⟩ := Nat.exists_eq_succ_of_ne_zero hzero
  -- as the first of the answer, each message is visited
  have hvisited : ∀ msg ∈ pending, ∀ l : List MessageContext, l.Perm pending →
      msg.uid ∈ (visits fails (l.take p.batchSize)).map MessageContext.uid := by
    intro msg hmsg l hl
    refine h.mem_part hu (fun hret => (hret.comesTo hu).processed) hmsg (fun rest => ?_) hl
    rw [hn, List.take_succ_cons, visits]
    split <;> exact List.mem_cons_self
  rcases exists_left_out hnodup hnot with ⟨bad, hmem, hbad⟩ | ⟨-, msg, hmsg, hout⟩
  · -- behind the message that fails there is another, which is not visited
    have hperm : (bad :: pending.erase bad).Perm pending := (List.perm_cons_erase hmem).symm
    cases hrest : pending.erase bad with
    | nil =>
      rw [← hperm.length_eq, hrest] at hlen
      exact hlen le_rfl
    | cons msg rest =>
      rw [hrest] at hperm
      have hmsg : msg ∈ pending := hperm.subset (List.mem_cons_of_mem _ List.mem_cons_self)
      have hin := hvisited msg hmsg _ hperm
      rw [hn, List.take_succ_cons, visits, hbad, if_pos rfl] at hin
      exact not_mem_of_split [bad] rest hnodup hperm hin
  · obtain ⟨seen, hseen, heq⟩ := List.mem_map.mp (hvisited msg hmsg pending (.refl _))
    exact hout (heq ▸ List.mem_map_of_mem ((visits_isPrefix _ _).subset hseen))

theorem of_orderFree_successful (hu : w.memory.lastSeenUid = some u)
    (hnodup : (pending.map MessageContext.uid).Nodup)
    (h : OrderFree p fails pending w successfulUids) :
    p.batchSize = 0 ∨ (∀ msg ∈ pending, fails msg.uid = true) ∨ AllGo p fails pending := by
  by_contra hcontra
  obtain ⟨hzero, hall, hnot⟩ := not_or.mp hcontra |>.imp id not_or.mp
  obtain ⟨n, hn⟩ := Nat.exists_eq_succ_of_ne_zero hzero
  -- as the first of the answer, each message that does not fail goes through
  have hsuccess : ∀ msg ∈ pending, fails msg.uid = false → ∀ l : List MessageContext,
      l.Perm pending → msg.uid ∈ (successes fails (l.take p.batchSize)).map MessageContext.uid := by
    intro msg hmsg hgood l hl
    refine h.mem_part hu (fun hret => (hret.comesTo hu).successful) hmsg (fun rest => ?_) hl
    rw [hn, List.take_succ_cons, successes, List.takeWhile_cons_of_pos (by rw [hgood]; rfl)]
    exact List.mem_cons_self
  rcases exists_left_out hnodup hnot with ⟨bad, hmem, hbad⟩ | ⟨hgood, msg, hmsg, hout⟩
  · -- behind the message that fails none goes through
    obtain ⟨msg, hmsg, hgood⟩ := not_forall₂.mp hall
    have hperm : (bad :: pending.erase bad).Perm pending := (List.perm_cons_erase hmem).symm
    have hin := hsuccess msg hmsg (Bool.eq_false_iff.mpr hgood) _ hperm
    rw [hn, List.take_succ_cons, successes, List.takeWhile_cons_of_neg (by simp [hbad])] at hin
    cases hin
  · obtain ⟨seen, hseen, heq⟩ :=
      List.mem_map.mp (hsuccess msg hmsg (hgood msg hmsg) pending (.refl _))
    exact hout (heq ▸ List.mem_map_of_mem ((List.takeWhile_prefix _).subset hseen))

end Order

/-! ## Section 4: Exactly then -/

/-- A batch comes to the same in all orders of the answer exactly when it processes none, there
is at most one message, or all go through. If messages that fail do not count as processed, a
batch in which all fail takes the place of that of at most one message. -/
theorem run_batch_order_iff (p : MessageProcessor) (fails : Nat → Bool)
    (pending : List MessageContext) (u : Nat) (w : World)
    (hu : w.memory.lastSeenUid = some u) (hnodup : (pending.map MessageContext.uid).Nodup)
    (habove : ∀ msg ∈ pending, u < msg.uid) :
    (OrderFree p fails pending w processedUids ↔
      p.batchSize = 0 ∨ pending.length ≤ 1 ∨ AllGo p fails pending) ∧
    (OrderFree p fails pending w successfulUids ↔
      p.batchSize = 0 ∨ (∀ msg ∈ pending, fails msg.uid = true) ∨ AllGo p fails pending) :=
  ⟨⟨of_orderFree_processed hu hnodup, orderFree_processed hu habove⟩,
    ⟨of_orderFree_successful hu hnodup, orderFree_successful hu habove⟩⟩

/-- A message with the given UID. -/
def sampleMessage (uid : Nat) : MessageContext :=
  (⟨uid, 2, [], sampleContent⟩ : StoredMessage).toContext

/-- A world in which the messages up to UID 3 have been processed. -/
def seenWorld : World := { sampleExecutorWorld with memory := { lastSeenUid := some 3 } }

/-- Two messages, of which the second fails, and room for both. -/
theorem run_batch_order_iff_two :
    (OrderFree ⟨true, {}, "INBOX", 2⟩ (· == 5) [sampleMessage 4, sampleMessage 5] seenWorld
        processedUids ↔
      2 = 0 ∨ [sampleMessage 4, sampleMessage 5].length ≤ 1 ∨
        AllGo ⟨true, {}, "INBOX", 2⟩ (· == 5) [sampleMessage 4, sampleMessage 5]) ∧
    (OrderFree ⟨true, {}, "INBOX", 2⟩ (· == 5) [sampleMessage 4, sampleMessage 5] seenWorld
        successfulUids ↔
      2 = 0 ∨ (∀ msg ∈ [sampleMessage 4, sampleMessage 5], (msg.uid == 5) = true) ∨
        AllGo ⟨true, {}, "INBOX", 2⟩ (· == 5) [sampleMessage 4, sampleMessage 5]) :=
  run_batch_order_iff ⟨true, {}, "INBOX", 2⟩ (· == 5) [sampleMessage 4, sampleMessage 5] 3
    seenWorld rfl (by decide) (by decide)

/-- With room for one message, UID 4 is passed over when UID 5 comes first. -/
theorem not_order_free :
    ¬ ∀ (p : MessageProcessor) (fails : Nat → Bool) (pending : List MessageContext) (u : Nat)
      (w : World), w.memory.lastSeenUid = some u → (pending.map MessageContext.uid).Nodup →
      (∀ msg ∈ pending, u < msg.uid) →
      OrderFree p fails pending w processedUids ∨ OrderFree p fails pending w successfulUids := by
  intro hall
  have hunskipped : ∀ l r w', l.Perm [sampleMessage 4, sampleMessage 5] →
      Returns ⟨true, {}, "INBOX", 1⟩ (fun _ => false) seenWorld l r w' →
      ∀ msg ∈ [sampleMessage 4, sampleMessage 5], msg.uid ∉ successfulUids r →
      ∀ last, w'.memory.lastSeenUid = some last → last < msg.uid := by
    rcases hall ⟨true, {}, "INBOX", 1⟩ (fun _ => false) [sampleMessage 4, sampleMessage 5] 3
      seenWorld rfl (by decide) (by decide) with h | h
    · exact h.unskipped
    · exact h.unskipped
  obtain ⟨r, w', hret⟩ := exists_returns ⟨true, {}, "INBOX", 1⟩ (fun _ => false)
    [sampleMessage 5, sampleMessage 4] (show seenWorld.memory.lastSeenUid = some 3 from rfl)
  have hcomes := hret.comesTo rfl
  -- only UID 5 is processed, and the bookmark is there
  have hnot : (sampleMessage 4).uid ∉ successfulUids r := by
    rw [hcomes.successful]
    decide
  have hlt := hunskipped _ r w' (.swap _ _ _) hret (sampleMessage 4) (by decide) hnot 5
    hcomes.bookmark
  exact absurd hlt (by decide)

end ImapSieve
