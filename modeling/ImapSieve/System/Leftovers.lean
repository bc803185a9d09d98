import ImapSieve.System.StateFile

/-!
# What the Process Leaves Behind

The process makes a temporary file for each update. `leftovers_accounted` says that it leaves
behind only those that it was writing when it was killed, and those that it had to unlink because
a step of writing them failed.
-/

namespace ImapSieve

open Effects

section Leftovers

variable {A E : Type} {crates : Crates A E} {path : String} {others : Server → Server → Prop}
  {cfg : Setup} {w₀ w w' : SystemWorld E}
  {x : Config (SystemCall E) (SystemReply E) (SystemWorld E) Exit}
  {tr : Trace (SystemCall E) (SystemReply E) (SystemWorld E)} {name : String}

/-- The process was killed while the file was its draft, or it was to be unlinked. -/
def Abandoned (name : String) (tr : Trace (SystemCall E) (SystemReply E) (SystemWorld E)) : Prop :=
  (∃ w before, .restarted w :: before <:+ tr ∧ (draftOf before).file? = some name) ∨
    ∃ w before, .called w (.file (.unlink name)) () :: before <:+ tr

theorem Abandoned.cons (h : Abandoned name tr)
    (e : Entry (SystemCall E) (SystemReply E) (SystemWorld E)) : Abandoned name (e :: tr) := by
  rcases h with ⟨w, before, hsuffix, hfile⟩ | ⟨w, before, hsuffix⟩
  · exact .inl ⟨w, before, hsuffix.trans (List.suffix_cons _ _), hfile⟩
  · exact .inr ⟨w, before, hsuffix.trans (List.suffix_cons _ _)⟩

/-- The file is as it was at the start, it is the draft, or it was abandoned. A draft was not
there at the start. -/
structure Tracked (name : String) (start : Directory) (q : Draft) (abandoned : Prop)
    (d : Directory) : Prop where
  content : d name = start name ∨ q.file? = some name ∨ abandoned
  fresh : q.file? = some name → start name = none ∨ abandoned

/-- The draft is worked on. -/
theorem Tracked.worked {start d d' : Directory} {q q' : Draft} {abandoned : Prop} {tmp : String}
    (h : Tracked name start q abandoned d) (hq : q.file? = some tmp) (hq' : q'.file? = some tmp)
    (hd : ∀ n, n ≠ tmp → d' n = d n) : Tracked name start q' abandoned d' := by
  have hfile : q'.file? = q.file? := hq'.trans hq.symm
  refine ⟨?_, fun hname => h.fresh (hfile ▸ hname)⟩
  by_cases htmp : name = tmp
  · exact .inr (.inl (htmp ▸ hq'))
  · rw [hd name htmp, hfile]
    exact h.content

/-- The draft is done with. -/
theorem Tracked.released {start d d' : Directory} {q q' : Draft} {abandoned : Prop} {tmp : String}
    (h : Tracked name start q abandoned d) (hq : q.file? = some tmp) (hq' : q'.file? = none)
    (hd : name ≠ tmp → d' name = d name) (hgone : name = tmp → d' name = none ∨ abandoned) :
    Tracked name start q' abandoned d' := by
  refine ⟨?_, fun hname => by rw [hq'] at hname; cases hname⟩
  by_cases htmp : name = tmp
  · rcases hgone htmp with hnone | habandoned
    · rcases h.fresh (htmp ▸ hq) with hstart | habandoned
      · exact .inl (hnone.trans hstart.symm)
      · exact .inr (.inr habandoned)
    · exact .inr (.inr habandoned)
  · rw [hd htmp]
    rcases h.content with hsame | hdraft | habandoned
    · exact .inl hsame
    · rw [hq] at hdraft
      exact absurd (Option.some.inj hdraft).symm htmp
    · exact .inr (.inr habandoned)

/-- What the store may ask for keeps track of the file. -/
theorem Tracked.call {codec : StateCodec} {start d d' : Directory} {q : Draft}
    {abandoned : Prop} (h : Tracked name start q abandoned d) (hname : name ≠ path)
    {c : FileCall} {r : FileReply c} (hallow : q.Allows path c)
    (hans : Directory.Answers codec path d c r d') (hunlink : c = .unlink name → abandoned) :
    Tracked name start (q.next c r) abandoned d' := by
  cases hallow with
  | createDirAll =>
    cases hans
    exact h
  | read =>
    rcases r with e | bytes
    · obtain ⟨-, rfl⟩ := hans
      exact h
    · obtain ⟨-, rfl⟩ := hans
      exact h
  | updating f before after =>
    cases hans
    exact h
  | updated f before result after =>
    cases hans
    exact h
  | toVec state =>
    rcases r with e | bytes
    · cases hans
      exact h
    · obtain ⟨-, rfl⟩ := hans
      exact ⟨h.content, nofun⟩
  | createTemp bytes =>
    rcases r with e | tmp
    · cases hans
      exact ⟨h.content, nofun⟩
    · obtain ⟨-, hfree, rfl⟩ := hans
      by_cases htmp : name = tmp
      · subst htmp
        refine ⟨.inr (.inl rfl), fun _ => ?_⟩
        rcases h.content with hsame | hdraft | habandoned
        · exact .inl (hsame.symm.trans hfree)
        · cases hdraft
        · exact .inr habandoned
      · refine ⟨?_, ?_⟩
        · rw [set_of_ne htmp]
          exact h.content.imp_right (.imp_left nofun)
        · rintro ⟨⟩
          exact absurd rfl htmp
  | @write tmp rest hmore =>
    have hd : ∀ n, n ≠ tmp → d' n = d n := by
      intro n hn
      rcases r with e | k
      · rcases hans with rfl | ⟨-, k, content, -, rfl⟩
        · rfl
        · exact set_of_ne hn d _
      · obtain ⟨-, content, -, rfl⟩ := hans
        exact set_of_ne hn d _
    rcases r with (_ | _ | message) | (_ | k)
    · exact h.worked rfl rfl hd
    · exact h.worked rfl rfl hd
    · exact h.worked rfl rfl hd
    · exact h.worked rfl rfl hd
    · exact h.worked rfl rfl hd
  | syncAll tmp =>
    cases hans
    rcases r with e | ⟨⟩
    · exact h.worked rfl rfl fun _ _ => rfl
    · exact h.worked rfl rfl fun _ _ => rfl
  | rename tmp =>
    rcases r with e | ⟨⟩
    · cases hans
      exact h.worked rfl rfl fun _ _ => rfl
    · obtain ⟨content, -, rfl⟩ := hans
      refine h.released rfl rfl (fun htmp => ?_) fun htmp => .inl ?_
      · rw [set_of_ne hname, set_of_ne htmp]
      · rw [set_of_ne hname, htmp, set_self]
  | unlink tmp =>
    refine h.released rfl rfl (fun htmp => ?_) fun htmp => .inr (hunlink (htmp ▸ rfl))
    rcases hans with rfl | rfl
    · rfl
    · exact set_of_ne htmp d none

theorem directory_of_awaits {α : Type} {done : SystemWorld E} {r : Selected α}
    (h : w.Awaits done r w') (hdone : done.directory = w.directory) :
    w'.directory = w.directory := by
  rcases r with _ | a
  · obtain ⟨-, rfl⟩ := h
    rfl
  · obtain ⟨-, rfl⟩ := h
    exact hdone

theorem directory_of_carries {c : NetCall} {succeeded : Bool} (h : w.Carries c succeeded w') :
    w'.directory = w.directory := by
  rcases h with ⟨cmd, sel, s, -, -, -, rfl⟩ | ⟨-, rfl⟩
  · rfl
  · rfl

/-- Only calls of the file system change the directory. -/
theorem directory_of_answers {codec : StateCodec} {c : SystemCall E} {r : SystemReply E c}
    (hc : c.isFile = false) (h : w.Answers codec path c r w') : w'.directory = w.directory := by
  cases c with
  | file c => cases hc
  | net c =>
    cases c with
    | notified =>
      cases r with
      | true =>
        obtain ⟨-, rfl⟩ := h
        rfl
      | false =>
        obtain ⟨-, rfl⟩ := h
        rfl
    | capabilities =>
      cases h
      rfl
    | select mailbox =>
      rcases r with e | info
      · cases h
        rfl
      · cases h
        rfl
    | uidFetch set query =>
      rcases r with e | items
      · cases h
        rfl
      · rw [h.2]
    | output command => exact directory_of_awaits h rfl
    | join => exact directory_of_awaits h rfl
    | tcpConnect host port => exact directory_of_awaits h rfl
    | starttls => exact directory_of_awaits h rfl
    | tlsHandshake host => exact directory_of_awaits h rfl
    | login username password => exact directory_of_awaits h rfl
    | idleInit => exact directory_of_awaits h rfl
    | idleWait timeout => exact directory_of_awaits h rfl
    | idleDone => exact directory_of_awaits h rfl
    | uidMv set target => exact directory_of_carries h
    | uidCopy set target => exact directory_of_carries h
    | uidStore set query => exact directory_of_carries h
    | uidExpunge set => exact directory_of_carries h
    | create mailbox => exact directory_of_carries h
  | sendRaw envelope raw =>
    rcases r with e | ⟨⟩
    · rcases h with rfl | rfl
      · rfl
      · rfl
    · cases h
      rfl
  | sleep delay =>
    rcases r with _ | ⟨⟩
    · obtain ⟨-, rfl⟩ := h
      rfl
    · cases h
      rfl
  | genRange jitter => rw [h.2]
  | load => rw [h.2]
  | stamp => rw [show w' = w from h]
  | readScript => rw [show w' = w from h]
  | spawnWatcher => rw [show w' = w from h]
  | output command => rw [show w' = w from h]
  | install script =>
    cases h
    rfl

theorem lives_tracked (hx : Lives (systemWorld crates path others) (crates.run path) w₀ cfg x)
    (hname : name ≠ path) :
    Tracked name w₀.directory (draftOf x.trace) (Abandoned name x.trace) x.world.directory := by
  refine drafts_invariant (I := fun w tr =>
    Tracked name w₀.directory (draftOf tr) (Abandoned name tr) w.directory) hx
    ⟨.inl rfl, fun hfile => by cases hfile⟩ ?_ ?_ ?_
  · intro w tr c r w' h hallow hans
    have h' : Tracked name w₀.directory (draftOf tr) (Abandoned name (.called w c r :: tr))
        w.directory :=
      ⟨h.content.imp_right (.imp_right (·.cons _)),
        fun hfile => (h.fresh hfile).imp_right (·.cons _)⟩
    rw [draftOf]
    generalize draftOf tr = q at h' hallow ⊢
    cases hallow with
    | @file q c hallow =>
      obtain ⟨d, hans, rfl⟩ := hans
      refine h'.call hname hallow hans ?_
      rintro rfl
      exact .inr ⟨w, tr, List.suffix_rfl⟩
    | other hc =>
      rw [directory_of_answers hc hans]
      cases c with
      | file c => cases hc
      | _ => exact h'
  · intro w w' tr h hd
    rw [hd.directory]
    exact h
  · intro w tr h
    refine ⟨?_, fun hfile => by cases hfile⟩
    rcases h.content with hsame | hdraft | habandoned
    · exact .inl hsame
    · exact .inr (.inr (.inl ⟨w, tr, List.suffix_rfl, hdraft⟩))
    · exact .inr (.inr (habandoned.cons _))

end Leftovers

/-- Beside the state file, every file in the directory is as it was at the start, or it is the
draft, or it was the draft when the process was killed, or when a step of writing it failed. -/
theorem leftovers_accounted {A E : Type} (crates : Crates A E) (path : String)
    (others : Server → Server → Prop) (w₀ : SystemWorld E) (cfg : Setup)
    (x : Config (SystemCall E) (SystemReply E) (SystemWorld E) Exit)
    (hx : Lives (systemWorld crates path others) (crates.run path) w₀ cfg x) (name : String)
    (hname : name ≠ path) :
    x.world.directory name = w₀.directory name ∨ (draftOf x.trace).file? = some name ∨
      Abandoned name x.trace :=
  (lives_tracked hx hname).content

theorem leftovers_accounted_processed :
    (sampleProcess 60).world.directory ".tmpV5h0Qk" = sampleSystem.directory ".tmpV5h0Qk" ∨
      (draftOf (sampleProcess 60).trace).file? = some ".tmpV5h0Qk" ∨
        Abandoned ".tmpV5h0Qk" (sampleProcess 60).trace :=
  leftovers_accounted sampleCrates "state.json" _ sampleSystem sampleSetup _
    (lives_sampleProcess 60) ".tmpV5h0Qk" (by decide)

end ImapSieve
