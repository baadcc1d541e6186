import Acps.Ca.Crl
import Acps.Ca.Revocation

/-!
What the revocation lists of a run contain: the serial numbers of the revoked certificates, as far
as these are stored under their own numbers.
-/

namespace Acps.Ca

open Aic (Text)

structure Publication where
  tables : Tables
  crls : List Crl

inductive Action where
  | perform (op : Operation)
  | generateNewCrl (now : Time) (nextUpdateHours : ℤ)

def publication : Transition.System Publication Action where
  step s
    | .perform op => (authority.step s.tables op).map fun tables => { s with tables := tables }
    | .generateNewCrl now nextUpdateHours =>
      match generateNewCrl s.tables.certificates s.crls now nextUpdateHours with
      | .ok (_, crls) => some { s with crls := crls }
      | .error _ => some s

def unpublished : Publication := { tables := noCertificates, crls := [] }

/-- The next list names the serial numbers embedded in the revoked certificates, each once, and its
number is larger than those of the lists before it. -/
def CrlComplete (s : Publication) : Prop :=
  ∀ now nextUpdateHours crl crls,
    generateNewCrl s.tables.certificates s.crls now nextUpdateHours = .ok (crl, crls) →
      (crl.revokedCertificates.map (·.serialNumber)).Nodup ∧
      (∀ n, n ∈ crl.revokedCertificates.map (·.serialNumber) ↔
        ∃ c ∈ s.tables.certificates, c.status = .revoked ∧ c.certificatePem.serialNumber = n) ∧
      ∀ old ∈ s.crls, old.crlNumber < crl.crlNumber

section Listing

structure Listable (t : Tables) : Prop where
  complete : ∀ c ∈ t.certificates, c.status = .revoked →
    c.revokedAt.isSome ∧ c.revocationReason.isSome
  serialNumber : ∀ c ∈ t.certificates, c.status = .revoked →
    c.serialNumber.toNat = c.certificatePem.serialNumber
  distinct : ∀ c ∈ t.certificates, ∀ d ∈ t.certificates, c.status = .revoked →
    d.status = .revoked → c.certificatePem.serialNumber = d.certificatePem.serialNumber → c = d

/-- What a request revokes is stored under the serial number embedded in it, which no other
certificate that is or gets revoked has embedded. -/
def Identified (t : Tables) (op : Operation) : Prop :=
  ∀ c ∈ t.certificates,
    (c.id ∈ administered t op → c.serialNumber.toNat = c.certificatePem.serialNumber) ∧
    (c.id ∈ revokes t op → ∀ d ∈ t.certificates, d.status = .revoked ∨ d.id ∈ revokes t op →
      d.certificatePem.serialNumber = c.certificatePem.serialNumber → d = c)

theorem revokedEntry_of_complete {c : Certificate}
    (h : c.revokedAt.isSome ∧ c.revocationReason.isSome) :
    ∃ e, revokedEntry c = some e ∧ e.serialNumber = c.serialNumber.toNat := by
  obtain ⟨htime, hreason⟩ := h
  obtain ⟨revokedAt, htime⟩ := Option.isSome_iff_exists.mp htime
  obtain ⟨reason, hreason⟩ := Option.isSome_iff_exists.mp hreason
  unfold revokedEntry
  rw [htime, hreason]
  exact ⟨_, rfl, rfl⟩

theorem map_filterMap_revokedEntry {cs : List Certificate}
    (h : ∀ c ∈ cs, c.revokedAt.isSome ∧ c.revocationReason.isSome) :
    (cs.filterMap revokedEntry).map (·.serialNumber) = cs.map (·.serialNumber.toNat) := by
  induction cs with
  | nil => rfl
  | cons c cs ih =>
    obtain ⟨e, he, hserial⟩ := revokedEntry_of_complete (h c List.mem_cons_self)
    rw [List.filterMap_cons_some he, List.map_cons, List.map_cons, hserial,
      ih fun d hd => h d (List.mem_cons_of_mem c hd)]

theorem crlComplete_of_listable {s : Publication} (hindexed : Indexed s.tables)
    (hlistable : Listable s.tables) : CrlComplete s := by
  intro now nextUpdateHours crl crls hcrl
  obtain ⟨hnumber, hentries⟩ := generateNewCrl_ok hcrl
  have hmem : ∀ c, c ∈ s.tables.certificates.filter (·.status = .revoked) ↔
      c ∈ s.tables.certificates ∧ c.status = .revoked := by
    simp
  have hserials : crl.revokedCertificates.map (·.serialNumber) =
      (s.tables.certificates.filter (·.status = .revoked)).map
        (·.certificatePem.serialNumber) := by
    rw [hentries, map_filterMap_revokedEntry]
    · refine List.map_congr_left fun c hc => ?_
      exact hlistable.serialNumber c ((hmem c).mp hc).1 ((hmem c).mp hc).2
    · exact fun c hc => hlistable.complete c ((hmem c).mp hc).1 ((hmem c).mp hc).2
  rw [hserials]
  refine ⟨?_, ?_, ?_⟩
  · have hnodup : s.tables.certificates.Nodup := List.Nodup.of_map _ hindexed.id
    refine List.Nodup.map_on (fun c hc d hd h => ?_) (hnodup.filter _)
    rw [hmem] at hc hd
    exact hlistable.distinct c hc.1 d hd.1 hc.2 hd.2 h
  · intro n
    simp [and_assoc]
  · intro old hold
    have := crlNumber_le_last hold
    omega

theorem serialNumber_of_revokes {t t' : Tables} {op : Operation} (ht : Indexed t)
    (h : perform t op = .ok t') (hidentified : Identified t op) {c : Certificate}
    (hc : c ∈ t.certificates) (hid : c.id ∈ revokes t op) :
    c.serialNumber.toNat = c.certificatePem.serialNumber := by
  cases op with
  | acmeRevoke cert owned reason now =>
    obtain ⟨a, ha, hserial, -⟩ := acmeRevoke_ok ht h
    obtain ⟨d, hd, hsame, hissued⟩ := ht.twin a ha
    obtain ⟨c', hc', hcid⟩ := List.mem_map.mp hid
    rw [List.mem_filter, decide_eq_true_eq] at hc'
    obtain rfl := ht.id.eq_of_key hc'.1 hc hcid
    obtain rfl := ht.serialNumber.eq_of_key hd hc'.1 (hsame.trans (hserial.trans hc'.2.1.symm))
    rw [hissued, upperHex_toNat]
  | _ => exact (hidentified c hc).1 hid

theorem listable_step {t t' : Tables} {op : Operation} (ht : Indexed t) (hlistable : Listable t)
    (h : perform t op = .ok t') (hidentified : Identified t op) : Listable t' := by
  obtain ⟨-, newAcme, new, heffect⟩ := perform_effect ht h
  -- a revoked row was revoked before, or is one that the request has marked
  have hrevoked : ∀ c' ∈ t'.certificates, c'.status = .revoked → ∃ c ∈ t.certificates,
      (c.status = .revoked ∨ c.id ∈ revokes t op) ∧
        c'.serialNumber = c.serialNumber ∧ c'.certificatePem = c.certificatePem ∧ c' =
          if c.id ∈ revokes t op then
            markRevoked (revocationTime op c.id) (revocationReason op) c
          else c := by
    intro c' hc' hstatus
    rcases heffect.mem_common.mp hc' with hnew | ⟨c, hc, rfl⟩
    · exact absurd ((heffect.added.common c' hnew).1.symm.trans hstatus) (by decide)
    · refine ⟨c, hc, ?_, ?_, ?_, rfl⟩
      · by_cases hid : c.id ∈ revokes t op
        · exact .inr hid
        · rw [if_neg hid] at hstatus
          exact .inl hstatus
      · split <;> rfl
      · split <;> rfl
  constructor
  · intro c' hc' hstatus
    obtain ⟨c, hc, hwas, -, -, rfl⟩ := hrevoked c' hc' hstatus
    by_cases hid : c.id ∈ revokes t op
    · rw [if_pos hid]
      exact ⟨rfl, rfl⟩
    · rw [if_neg hid]
      exact hlistable.complete c hc (hwas.resolve_right hid)
  · intro c' hc' hstatus
    obtain ⟨c, hc, hwas, hserial, hpem, -⟩ := hrevoked c' hc' hstatus
    rw [hserial, hpem]
    rcases hwas with hwas | hid
    · exact hlistable.serialNumber c hc hwas
    · exact serialNumber_of_revokes ht h hidentified hc hid
  · intro c' hc' d' hd' hstatus hdstatus hsame
    obtain ⟨c, hc, hwas, -, hpem, hceq⟩ := hrevoked c' hc' hstatus
    obtain ⟨d, hd, hdwas, -, hdpem, hdeq⟩ := hrevoked d' hd' hdstatus
    rw [hpem, hdpem] at hsame
    have hcd : c = d := by
      rcases hwas with hwas | hid
      · rcases hdwas with hdwas | hdid
        · exact hlistable.distinct c hc d hd hwas hdwas hsame
        · exact (hidentified d hd).2 hdid c hc (.inl hwas) hsame
      · exact ((hidentified c hc).2 hid d hd hdwas hsame.symm).symm
    rw [hceq, hdeq, hcd]

def Listed (s : Publication) : Action → Prop
  | .perform op => ∀ t, perform s.tables op = .ok t → Identified s.tables op
  | .generateNewCrl _ _ => True

theorem publication_step {s s' : Publication} {a : Action}
    (hs : Indexed s.tables ∧ Listable s.tables) (hlisted : Listed s a)
    (h : publication.step s a = some s') : Indexed s'.tables ∧ Listable s'.tables := by
  cases a with
  | perform op =>
    obtain ⟨tables, hstep, rfl⟩ := Option.map_eq_some_iff.mp h
    refine ⟨indexed_step hs.1 hstep, ?_⟩
    rcases step_cases hstep with hperform | rfl
    · exact listable_step hs.1 hs.2 hperform (hlisted tables hperform)
    · exact hs.2
  | generateNewCrl now nextUpdateHours =>
    change (match generateNewCrl s.tables.certificates s.crls now nextUpdateHours with
      | .ok (_, crls) => some { s with crls := crls }
      | .error _ => some s) = some s' at h
    split at h <;> obtain rfl := Option.some.inj h <;> exact hs

theorem listable_noCertificates : Listable noCertificates where
  complete := fun _ h => absurd h List.not_mem_nil
  serialNumber := fun _ h => absurd h List.not_mem_nil
  distinct := fun _ h => absurd h List.not_mem_nil

theorem crl_complete {actions : List Action} {s : Publication}
    (hlisted : publication.Meets Listed unpublished actions)
    (hs : publication.exec unpublished actions = some s) : CrlComplete s := by
  have hinvariant := publication.exec_invariant
    (I := fun s => Indexed s.tables ∧ Listable s.tables)
    (fun _ _ _ hs hlisted h => publication_step hs hlisted h)
    ⟨indexed_noCertificates, listable_noCertificates⟩ hlisted hs
  exact crlComplete_of_listable hinvariant.1 hinvariant.2

instance (t : Tables) (op : Operation) : Decidable (Identified t op) :=
  inferInstanceAs (Decidable (∀ c ∈ t.certificates, _ ∧ _))

theorem crl_complete_notified : ∃ s, publication.exec unpublished
    [.perform (.issue [agentIssue]), .perform (.revokeNotify ['A'] 1 fun _ => 5),
      .generateNewCrl 6 24] = some s ∧ CrlComplete s := by
  have hlisted : publication.Meets Listed unpublished
      [.perform (.issue [agentIssue]), .perform (.revokeNotify ['A'] 1 fun _ => 5),
        .generateNewCrl 6 24] := by
    refine Transition.System.meets_of_check (c := fun s a =>
      match a with
      | .perform op => decide (Identified s.tables op)
      | .generateNewCrl _ _ => true) _ (fun s a h => ?_) (by decide)
    cases a with
    | perform op => exact fun _ _ => of_decide_eq_true h
    | generateNewCrl now nextUpdateHours => trivial
  exact ⟨_, rfl, crl_complete hlisted rfl⟩

theorem root_listed_under_other_serial : ∃ s, publication.exec unpublished
    [.perform (.createRoot [] 10 0 rootDraws), .perform (.revoke 2 [] 5)] = some s ∧
      ¬ CrlComplete s := by
  refine ⟨_, rfl, fun h => ?_⟩
  obtain ⟨-, hmem, -⟩ := h 6 24 _ _ rfl
  exact absurd ((hmem 10).mpr (by decide)) (by decide)

end Listing

end Acps.Ca
