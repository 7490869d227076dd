import McpSurfaces.Scheduler.Moves

/-!
How often an activation is leased. A reported failure counts the attempt and blocks the
activation at the limit of its binding; a lease that runs out counts the attempt as well, but
puts the activation back into the queue whatever the count.

* `leasesLeft`: the leases an activation has left, a potential that every lease pays from.
* **`leased_at_most`**: without an unblocking, an activation whose last attempt never runs out
  unreported is leased at most `max_attempts` times.
* `crashing_consumer`: a consumer that reports nothing is handed the activation again and again.
-/

namespace McpSurfaces

namespace Scheduler

open EventLedger (Failure Digest)

section Attempts

variable [FloatText] [Digest] [IsoTime]

/-- The binding of the activation, where it is there, allows so many attempts. -/
def LimitIs (id : String) (limit : ℕ) (s : Store) : Prop :=
  ∀ a ∈ s.activation id, ∀ b ∈ s.binding a.bindingId, b.spec.maxAttempts = limit

instance (id : String) (limit : ℕ) (s : Store) : Decidable (LimitIs id limit s) :=
  inferInstanceAs (Decidable (∀ a ∈ s.activation id, _))

/-- A claim meets the activation with a lease that ran out on its last attempt. -/
def Exhausts (id : String) (limit : ℕ) (s : Store) (c : Call) : Prop :=
  c.tool = .activationClaim ∧ ∃ now ∈ IsoTime.format c.env.now, ∃ a ∈ s.activation id,
    s.Overdue now [.active, .retired] a ∧ limit ≤ a.attemptCount + 1

instance (id : String) (limit : ℕ) (s : Store) (c : Call) : Decidable (Exhausts id limit s c) :=
  inferInstanceAs (Decidable (_ ∧ ∃ now ∈ IsoTime.format c.env.now, ∃ a ∈ s.activation id, _))

/-! ### The potential -/

/-- The leases that an activation has left, at most. -/
def leasesLeft (limit : ℕ) : Option Activation → ℕ
  | none => limit
  | some a =>
      match a.status with
      | .pending => max 1 (limit - a.attemptCount)
      | .leased => limit - (a.attemptCount + 1)
      | .admitted | .terminal | .blocked => 0

omit [FloatText] [Digest] [IsoTime] in
lemma leasesLeft_le {limit : ℕ} (hpos : 0 < limit) (a : Option Activation) : leasesLeft limit a ≤ limit := by
  cases a with
  | none => exact Nat.le_refl _
  | some a =>
      cases h : a.status <;> simp only [leasesLeft, h]
      all_goals omega

omit [FloatText] [Digest] in
/-- The recovery of a claim leaves an activation no more leases than it had, unless its last
attempt ran out. -/
lemma leasesLeft_recoverRow {s : Store} {c : Call} {now : String} {a : Activation} {limit : ℕ}
    (htool : c.tool = .activationClaim) (hnow : formatIso c.env.now = .ok now)
    (ha : s.activation a.activationId = some a) (h : ¬ Exhausts a.activationId limit s c) :
    leasesLeft limit (some (recoverRow s now a)) ≤ leasesLeft limit (some a) := by
  rw [recoverRow]
  split_ifs with hpaused hactive
  · exact Nat.zero_le _
  · have hcount : a.attemptCount + 1 < limit := by
      by_contra hge
      exact h ⟨htool, now, format_of_formatIso hnow, a, ha, hactive, by omega⟩
    simp only [leasesLeft, hactive.1, Activation.recover, Activation.release]
    omega
  · exact Nat.le_refl _

/-- **Every lease pays from the potential.** -/
lemma leasesLeft_after {s : Store} (hs : s.WellFormed) {c : Call} {id : String} {limit : ℕ}
    (hpos : 0 < limit) (hbound : LimitIs id limit s) (hunblocks : ¬ Unblocks id c)
    (hexhausts : ¬ Exhausts id limit s c) :
    (if Leases id s c then 1 else 0) + leasesLeft limit ((s.after c).activation id) ≤
      leasesLeft limit (s.activation id) := by
  rcases after_cases s c with ⟨heq, hnone⟩ | heffect
  · rw [heq, if_neg (by simp [Leases, hnone])]
    omega
  cases ha : s.activation id with
  | none =>
      have hfree : ¬ Leases id s c := fun h => by
        obtain ⟨a, ha'⟩ := row_of_leases h
        simp [ha] at ha'
      rw [if_neg hfree]
      have hle : leasesLeft limit ((s.after c).activation id) ≤ limit := leasesLeft_le hpos _
      calc 0 + leasesLeft limit ((s.after c).activation id)
          = leasesLeft limit ((s.after c).activation id) := Nat.zero_add _
        _ ≤ limit := hle
  | some a =>
      obtain rfl : a.activationId = id := Store.key_of_activation ha
      obtain ⟨b, hb, hmove⟩ := move_of_effect hs heffect ha
      rw [hb]
      have hfree : c.tool ≠ .activationClaim → ¬ Leases a.activationId s c := fun htool h => by
        rw [Leases, leasedBy_eq_none htool] at h
        cases h
      cases hmove with
      | keep htool =>
          rw [if_neg (hfree htool)]
          omega
      | quiesce htool =>
          rw [if_neg (hfree (by simp [htool]))]
          exact Nat.zero_le _
      | recover htool hnow hleased =>
          rw [if_neg (show ¬ Leases _ s c from hleased)]
          have := leasesLeft_recoverRow htool hnow ha hexhausts
          omega
      | lease htool hnow hleased hclaimable =>
          rw [if_pos (show Leases _ s c from hleased)]
          have hrecover := leasesLeft_recoverRow htool hnow ha hexhausts
          simp only [leasesLeft, hclaimable.1] at hrecover
          simp only [leasesLeft, Activation.lease]
          omega
      | admitSop htool =>
          rw [if_neg (hfree (by simp [htool]))]
          exact Nat.zero_le _
      | @fail due error now b retry htool hid hleased hbinding hretry =>
          rw [if_neg (hfree (by simp [htool]))]
          cases retry with
          | false => exact Nat.zero_le _
          | true =>
              have hcount := hretry rfl
              rw [hbound a ha b hbinding] at hcount
              simp only [leasesLeft, hleased, Activation.fail, Activation.release, if_true]
              omega
      | resolve htool =>
          rw [if_neg (hfree (by simp [htool]))]
          exact Nat.zero_le _
      | unblock htool hid => exact absurd ⟨htool, hid⟩ hunblocks

/-- **An activation is leased at most `max_attempts` times** before it is admitted or blocked,
in every run that does not unblock it and in which no claim meets it with a lease that ran out
on its last attempt. -/
theorem leased_at_most {s : Store} (hs : Reachable s) {id : String} {limit : ℕ} (hpos : 0 < limit)
    {calls : List Call}
    (hlimit : Calls.Each Store.after (fun s _ => LimitIs id limit s) s calls)
    (hunblocks : Calls.Each Store.after (fun _ c => ¬ Unblocks id c) s calls)
    (hexhausts : Calls.Each Store.after (fun s c => ¬ Exhausts id limit s c) s calls) :
    Calls.count Store.after (Leases id) s calls ≤ limit := by
  calc Calls.count Store.after (Leases id) s calls
      ≤ leasesLeft limit (s.activation id) :=
        Calls.count_le_potential (fun s : Store => leasesLeft limit (s.activation id))
          (fun _ c h _ => Store.WellFormed.after h c)
          (fun s c h hc => leasesLeft_after h hpos hc.1.1 hc.1.2 hc.2) hs.wellFormed
          ((hlimit.and hunblocks).and hexhausts)
    _ ≤ limit := leasesLeft_le hpos _

end Attempts

/-- A binding, an event for it and three claims that report nothing. -/
def crashes (limit : ℕ) : List Call :=
  [⟨.bindingUpsert, sampleEnv 0, sampleBinding .singleton limit⟩,
    ⟨.eventAdmit, sampleEnv 1, sampleEvent "e1" "p1" "done"⟩,
    sampleClaim 2, sampleClaim 60000, sampleClaim 120000]

/-- With three attempts the three leases are within the limit. -/
theorem leased_at_most_crashes :
    letI := FloatText.fields
    letI := backwards
    letI := IsoTime.utc
    Calls.count Store.after (Leases (activationIdOf "sync" "e1")) Store.empty (crashes 3) ≤ 3 :=
  @leased_at_most FloatText.fields backwards IsoTime.utc Store.empty ⟨[], rfl⟩
    (@activationIdOf FloatText.fields backwards "sync" "e1") 3 (by decide) (crashes 3)
    (by decide +kernel) (by decide +kernel) (by decide +kernel)

/-- With one attempt the second and the third lease are beyond the limit: a lease that runs out
counts as an attempt, but does not block the activation. -/
theorem crashing_consumer :
    letI := FloatText.fields
    letI := backwards
    letI := IsoTime.utc
    ¬ ∀ s, Reachable s → ∀ (id : String) (limit : ℕ) (calls : List Call), 0 < limit →
      Calls.Each Store.after (fun s _ => LimitIs id limit s) s calls →
      Calls.Each Store.after (fun _ c => ¬ Unblocks id c) s calls →
      Calls.count Store.after (Leases id) s calls ≤ limit := by
  intro h
  have hcount := h Store.empty ⟨[], rfl⟩ (@activationIdOf FloatText.fields backwards "sync" "e1") 1
    (crashes 1) (by decide) (by decide +kernel) (by decide +kernel)
  exact absurd hcount (by decide +kernel)

end Scheduler

end McpSurfaces
