import ImapSieve.World

/-!
# Mail Sender

`LettreMailSender::send`: parse the addresses, build the envelope and hand it to the transport.
The parser, the constructor of envelopes and the transport belong to the SMTP library; they are
parameters here.
-/

namespace ImapSieve

/-- What the sender uses of the SMTP library, with its types of addresses and envelopes. -/
structure Lettre (A E : Type) where
  /-- `str::parse::<Address>` -/
  parse : String → Except String A
  /-- `Envelope::new` -/
  newEnvelope : Option A → List A → Except String E

namespace Lettre

variable {A E : Type} (l : Lettre A E) {mail : OutgoingMail} {s : String}

/-- The reverse-path of a mail: null for an empty sender. -/
def reversePath (mail : OutgoingMail) : Except CoreError (Option A) :=
  if mail.envelopeFrom = "" then .ok none
  else
    match l.parse mail.envelopeFrom with
    | .ok a => .ok (some a)
    | .error e => .error (.smtp e)

/-- The parsed recipients. The first that is no address is an error of the whole. -/
def forwardPath : List String → Except CoreError (List A)
  | [] => .ok []
  | s :: rest =>
      match l.parse s with
      | .error e => .error (.smtp e)
      | .ok a => do
          let others ← forwardPath rest
          return a :: others

/-- `LettreMailSender::send`. The transport answers with success or an error. -/
def send (sendRaw : E → List UInt8 → Except String Unit) (mail : OutgoingMail) :
    Except CoreError Unit := do
  let sender ← l.reversePath mail
  let to' ← l.forwardPath mail.envelopeTo
  let envelope ← (l.newEnvelope sender to').mapError .smtp
  (sendRaw envelope mail.raw).mapError .smtp

/-- The parser takes the string for an address. -/
def Accepts (s : String) : Prop := ∃ a, l.parse s = .ok a

variable {l}

/-- The reverse-path is null exactly for an empty sender. -/
theorem reversePath_eq_none_iff : l.reversePath mail = .ok none ↔ mail.envelopeFrom = "" := by
  unfold reversePath
  constructor
  · intro h
    split at h
    · assumption
    · split at h <;> cases h
  · intro h
    rw [if_pos h]

theorem forwardPath_error {recipients : List String} (hmem : s ∈ recipients)
    (h : ¬ l.Accepts s) : ∃ e, l.forwardPath recipients = .error e := by
  induction recipients with
  | nil => cases hmem
  | cons first rest ih =>
    rw [forwardPath]
    cases hparse : l.parse first with
    | error e => exact ⟨_, rfl⟩
    | ok a =>
      rcases List.mem_cons.mp hmem with rfl | hrest
      · exact absurd ⟨a, hparse⟩ h
      · obtain ⟨e, he⟩ := ih hrest
        rw [he]
        exact ⟨e, rfl⟩

/-- A mail with a recipient that is no address is not sent. -/
theorem send_refused (sendRaw : E → List UInt8 → Except String Unit) (hmem : s ∈ mail.envelopeTo)
    (h : ¬ l.Accepts s) : ∃ e, l.send sendRaw mail = .error e := by
  obtain ⟨e, he⟩ := forwardPath_error hmem h
  rw [send]
  cases l.reversePath mail with
  | error e' => exact ⟨e', rfl⟩
  | ok sender =>
    refine ⟨e, ?_⟩
    rw [he]
    rfl

theorem reversePath_isSmtp {e : CoreError} (h : l.reversePath mail = .error e) : e.IsSmtp := by
  unfold reversePath at h
  split at h
  · cases h
  · split at h
    · cases h
    · cases h
      exact ⟨_, rfl⟩

theorem forwardPath_isSmtp {recipients : List String} {e : CoreError}
    (h : l.forwardPath recipients = .error e) : e.IsSmtp := by
  induction recipients with
  | nil => cases h
  | cons first rest ih =>
    rw [forwardPath] at h
    split at h
    · cases h
      exact ⟨_, rfl⟩
    · rcases except_bind_error h with hrest | ⟨others, hothers⟩
      · exact ih hrest
      · cases hothers

/-- All its errors are errors of the mail sender. -/
theorem send_isSmtp {sendRaw : E → List UInt8 → Except String Unit} {e : CoreError}
    (h : l.send sendRaw mail = .error e) : e.IsSmtp := by
  rcases except_bind_error h with hsender | ⟨sender, h⟩
  · exact reversePath_isSmtp hsender
  · rcases except_bind_error h with hto | ⟨to', h⟩
    · exact forwardPath_isSmtp hto
    · rcases except_bind_error h with henvelope | ⟨envelope, hsend⟩
      · exact except_mapError_error henvelope
      · exact except_mapError_error hsend

/-- What the sender returns is an answer of the world. -/
theorem answers_send (w : World) (sendRaw : E → List UInt8 → Except String Unit)
    (mail : OutgoingMail) : ∃ w', World.Answers w (.send mail) (l.send sendRaw mail) w' := by
  cases hresult : l.send sendRaw mail with
  | ok u => exact ⟨_, rfl⟩
  | error e => exact ⟨w, send_isSmtp hresult, .inl rfl⟩

end Lettre

end ImapSieve
