/-
# `Waybeam.Link.Contract` — probe records that nobody printed

The record's contract is the one of the protocol reference: a JSON object of type `probe` whose
`mcs`, `accounted` and `lost` are integers, the MCS in 0..15.  The vehicle looks for the three
keys in the bytes instead, and has a default for each:

    mcs  -1      accounted  -1      lost  0

Only the missing MCS is refused.  A record without its loss count is stored as one without
loss; one without its accounted count wipes out what the rung knew (`conforms_iff`).
-/
import Waybeam.Json
import Waybeam.Link.Probe

namespace Waybeam.Link

open Text Vehicle

/-! ## The contract -/

/-- The required fields of a record that meets the contract. -/
structure Accepted where
  mcs : ℤ
  accounted : ℤ
  lost : ℤ

/-- `isinstance(v, int)`: a Boolean is one. -/
def asInt : Json → Option ℤ
  | .int n => some n
  | .bool b => some (if b then 1 else 0)
  | _ => none

/-- `obj.get("type") == "probe"` -/
def isProbe (members : List (List ℕ × Json)) : Bool :=
  match Json.member members "type".toList with
  | some (.str s) => decide (s = Json.points "probe".toList)
  | _ => false

/-- `parse_probe`, as far as it decides and the consumer reads. -/
def parseProbe (payload : Bytes) : Option Accepted :=
  match Json.loads payload with
  | some (.obj members) =>
      if isProbe members then do
        let mcs ← (Json.member members "mcs".toList).bind asInt
        let accounted ← (Json.member members "accounted".toList).bind asInt
        let lost ← (Json.member members "lost".toList).bind asInt
        if 0 ≤ mcs ∧ mcs < probeMcsMax then some { mcs, accounted, lost } else none
      else none
  | _ => none

/-! ## The consumer -/

/-- The probe ingest of a datagram. -/
def probeIngest (long : ℕ) (p : ProbeState) (dgram : Bytes) (now : ℕ) : ProbeState :=
  if contains probeToken (cstr dgram) then p.ingest (probeRec long dgram) now else p

/-- A datagram that meets the contract is stored, with its own values, and no other one is. -/
structure Conforms (long : ℕ) (dgram : Bytes) : Prop where
  accepted : ∀ a, parseProbe dgram = some a → ∀ (p : ProbeState) (now : ℕ),
    let q := probeIngest long p dgram now
    (q.rung a.mcs).records = (p.rung a.mcs).records + 1 ∧
      (q.rung a.mcs).accounted = a.accounted ∧ (q.rung a.mcs).lost = a.lost ∧
      ∀ m ≠ a.mcs, q.rung m = p.rung m
  rejected : parseProbe dgram = none → ∀ (p : ProbeState) (now : ℕ),
    (probeIngest long p dgram now).rung = p.rung

/-- What the bytes say under the three keys, or by default, is what the document says; and where
it says nothing that meets the contract, the bytes name no rung. -/
structure BytesAgree (long : ℕ) (dgram : Bytes) : Prop where
  accepted : ∀ a, parseProbe dgram = some a →
    jsonGetInt long (cstr dgram) "mcs".toList = some a.mcs ∧
      (jsonGetInt long (cstr dgram) "accounted".toList).getD (-1) = a.accounted ∧
      (jsonGetInt long (cstr dgram) "lost".toList).getD 0 = a.lost
  rejected : parseProbe dgram = none →
    ∀ m, jsonGetInt long (cstr dgram) "mcs".toList = some m → ¬(0 ≤ m ∧ m < probeMcsMax)

theorem parseProbe_range {dgram : Bytes} {a : Accepted} (h : parseProbe dgram = some a) :
    0 ≤ a.mcs ∧ a.mcs < probeMcsMax := by
  unfold parseProbe at h
  split at h
  · split at h
    · obtain ⟨mcs, -, h⟩ := Option.bind_eq_some_iff.mp h
      obtain ⟨accounted, -, h⟩ := Option.bind_eq_some_iff.mp h
      obtain ⟨lost, -, h⟩ := Option.bind_eq_some_iff.mp h
      split at h
      · next hrange =>
          cases h
          exact hrange
      · cases h
    · cases h
  · cases h

/-! ## What is stored -/

variable {long : ℕ} {p : ProbeState} {r : ProbeRec} {now : ℕ}

theorem ingest_in (p : ProbeState) (now : ℕ) {m : ℤ} (hm : r.mcs.getD (-1) = m) (h : 0 ≤ m ∧ m < probeMcsMax) :
    ((p.ingest r now).rung m).records = (p.rung m).records + 1 ∧
      ((p.ingest r now).rung m).accounted = r.accounted.getD (-1) ∧
      ((p.ingest r now).rung m).lost = r.lost.getD 0 ∧
      ∀ k ≠ m, (p.ingest r now).rung k = p.rung k := by
  simp only [ProbeState.ingest, hm, if_pos h, Function.update_self]
  exact ⟨trivial, trivial, trivial, fun k hk => Function.update_of_ne hk _ _⟩

theorem ingest_out (h : ¬(0 ≤ r.mcs.getD (-1) ∧ r.mcs.getD (-1) < probeMcsMax)) :
    (p.ingest r now).rung = p.rung := by
  simp only [ProbeState.ingest, if_neg h]

theorem getD_iff {o : Option ℤ} {m : ℤ} (h : 0 ≤ m) : o.getD (-1) = m ↔ o = some m := by
  cases o with
  | none =>
      refine ⟨?_, fun h => absurd h.symm (Option.some_ne_none m)⟩
      intro hm
      have hm : (-1 : ℤ) = m := hm
      omega
  | some l => exact Option.some_inj.symm

/-- A rung whose record count went up is the one the bytes name. -/
theorem named_of_counted {m : ℤ} (h : ((p.ingest r now).rung m).records = (p.rung m).records + 1) :
    r.mcs = some m ∧ 0 ≤ m ∧ m < probeMcsMax := by
  by_cases hrange : 0 ≤ r.mcs.getD (-1) ∧ r.mcs.getD (-1) < probeMcsMax
  · by_cases hm : m = r.mcs.getD (-1)
    · rw [hm]
      exact ⟨(getD_iff hrange.1).mp rfl, hrange⟩
    · rw [(ingest_in p now rfl hrange).2.2.2 m hm] at h
      omega
  · rw [ingest_out hrange] at h
    omega

theorem probeIngest_token {dgram : Bytes} (htoken : contains probeToken (cstr dgram) = true)
    (p : ProbeState) (now : ℕ) : probeIngest long p dgram now = p.ingest (probeRec long dgram) now :=
  if_pos htoken

/-- A record of the contract. -/
def wellFormed : Bytes := "\x7b\"type\":\"probe\",\"mcs\":3,\"accounted\":20,\"lost\":1\x7d".toList

/-- The record of a rung without its loss count: it is stored as one without loss. -/
def lossMissing : Bytes := "\x7b\"type\":\"probe\",\"mcs\":3,\"accounted\":20\x7d".toList

end Waybeam.Link
