/-
# `Waybeam.Link.Keys` — one passphrase at both ends

The key pages of the two ends are alike: a request to `/keys` or `/api/v1/keys` asks for the state of
the key file, writes it, or is refused.  A passphrase is sent as `action=seed&seed=` and its encoded
form, and the two ends differ in what they make of a long one:

    vehicle    decodes it into 128 bytes, and cuts off the rest
    ground     copies an encoded form of 127 bytes at most; of a longer one it takes the default

So the passphrase gives both ends the keys of one pair iff its encoded form is that short
(`seeded_match`).  Then whatever process reads the key file of either end, during or after, shows
the same fingerprint.
-/
import Waybeam.Multicall.KeyFile
import Waybeam.Vehicle.QParam

namespace Waybeam.Link

open Text Multicall

/-! ## The two handlers -/

/-- What a request about the key file comes to. -/
inductive KeysCall where
  | status
  | job (job : Job)
  | restart
  | refused (errmsg : String)

/-- The bytes of an upload. -/
def uploaded (hex : Bytes) : Option RawKey :=
  match h : wfbHexToKey hex with
  | none => none
  | some kb => some ⟨kb, by
      unfold wfbHexToKey at h
      split at h
      · cases h
      · split at h
        · cases h
        · next hlen =>
            cases h
            exact Decidable.not_not.mp (not_or.mp hlen).1⟩

/-- `/keys` of the vehicle. -/
def vehicleKeys (qs : Option Bytes) : KeysCall :=
  let action := (Vehicle.Api.qparamStr qs "action" 32).getD []
  if action = "restart".toList then .restart
  else if action = [] then .status
  else if action = "seed".toList then
    let seed := (Vehicle.Api.qparamStr qs "seed" 128).getD []
    .job (.seed .drone (some (if seed = [] then keyDefaultSeed else seed)))
  else if action = "random".toList then .job (.random .drone)
  else if action = "upload".toList then
    match (Vehicle.Api.qparamStr qs "hex" 160).bind uploaded with
    | some kb => .job (.raw kb)
    | none => .refused "bad key (need 128 hex chars)"
  else .refused "unknown action"

/-- `/api/v1/keys` of the ground station. -/
def groundKeys (qstr : Option Bytes) : KeysCall :=
  let get (key : String) := qstr.bind fun qs => Ground.qsGetC qs key.toList
  let action := ((get "action").filter fun a => a.length < 32).getD []
  if action = [] then .status
  else if action = "seed".toList then
    .job (.seed .gs (some (match get "seed" with
      | some s => if s ≠ [] ∧ s.length < 128 then cstr (Ground.qsPctDecode 127 s) else keyDefaultSeed
      | none => keyDefaultSeed)))
  else if action = "random".toList then .job (.random .gs)
  else if action = "upload".toList then
    match (get "hex").filter fun h => h.length < 160 with
    | none => .refused "missing/long hex"
    | some hex =>
        match uploaded hex with
        | some kb => .job (.raw kb)
        | none => .refused "bad key (need 128 hex chars)"
  else .refused "unknown action"

/-! ## The pages -/

/-- What the pages send on as a passphrase: not empty, of bytes, without a NUL. -/
structure Passphrase where
  text : Bytes
  nonempty : text ≠ []
  bytes : ∀ c ∈ text, c.toNat < 256 ∧ c ≠ '\x00'

variable (S : Passphrase)

theorem Passphrase.small : ∀ c ∈ S.text, c.toNat < 256 := fun c hc => (S.bytes c hc).1

theorem Passphrase.free : '\x00' ∉ S.text := fun h => (S.bytes _ h).2 rfl

/-- The query of `keyCall('action=seed&seed='+encodeURIComponent(s), …)`. -/
def seedQuery : Bytes := "action=seed&seed=".toList ++ Ground.encodeURIComponent S.text

theorem isKey_seed : Ground.IsKey "seed".toList := show ∀ c ∈ "seed".toList, _ by decide

theorem isKey_action : Ground.IsKey "action".toList := show ∀ c ∈ "action".toList, _ by decide

def actionPair : Ground.QPair := ⟨"action".toList, "seed".toList, isKey_action, by decide⟩

def seedPair : Ground.QPair := Ground.encodedPair "seed".toList S.text isKey_seed S.small

theorem seedQuery_eq : seedQuery S = Ground.queryText [actionPair, seedPair S] := by
  have hpair : ∀ q r : Ground.QPair, Ground.queryText [q, r] = q.text ++ '&' :: r.text := by
    intro q r
    simp [Ground.queryText, List.intercalate]
  have hlit : "action=seed&seed=".toList =
      ("action".toList ++ '=' :: "seed".toList) ++ '&' :: ("seed".toList ++ ['=']) := by decide +kernel
  have hjoin : ∀ a b c e : Bytes, ((a ++ '=' :: b) ++ '&' :: (c ++ ['='])) ++ e =
      (a ++ '=' :: b) ++ '&' :: (c ++ '=' :: e) := by
    intro a b c e
    simp
  exact (congrArg (· ++ Ground.encodeURIComponent S.text) hlit).trans ((hjoin _ _ _ _).trans
    (hpair actionPair (seedPair S)).symm)

theorem get_seedQuery : Ground.qsGetC (seedQuery S) "action".toList = some "seed".toList ∧
    Ground.qsGetC (seedQuery S) "seed".toList = some (Ground.encodeURIComponent S.text) := by
  constructor
  · rw [seedQuery_eq, Ground.qsGetC_query isKey_action]
    rfl
  · rw [seedQuery_eq, Ground.qsGetC_query isKey_seed]
    rfl

theorem qsGet_seedQuery {key : Bytes} (hkey : Ground.IsKey key) :
    Ground.qsGet (seedQuery S) key = Ground.qsGetC (seedQuery S) key := by
  rw [Ground.qsGetC, seedQuery_eq, cstr_of_free (Ground.queryText_nul _), Ground.qsWalk_eq hkey]

/-! ## What is decoded -/

/-- Where there is no room for all that was encoded, its beginning is decoded. -/
theorem qsPctDecode_take {s : Bytes} (hs : ∀ c ∈ s, c.toNat < 256) (room : ℕ) :
    Ground.qsPctDecode room (Ground.encodeURIComponent s) = s.take room := by
  induction s generalizing room with
  | nil => cases room <;> rfl
  | cons c s ih =>
      cases room with
      | zero => rw [Ground.qsPctDecode, List.take_zero]
      | succ room =>
          have htail := ih (fun d hd => hs d (List.mem_cons_of_mem _ hd)) room
          rw [Ground.encode_cons, List.take_succ_cons]
          split
          · next hkeep =>
              rw [List.singleton_append, Ground.qsPctDecode_of_ne (Ground.unreserved_ne hkeep).1, htail]
          · show Ground.qsPctDecode (room + 1) ('%' :: Ground.hexDigit _ :: Ground.hexDigit _ ::
              Ground.encodeURIComponent s) = _
            rw [Ground.qsPctDecode_of_byte (Ground.pctByte_hexDigit (hs c List.mem_cons_self)), htail]

theorem urlDecode_take {s : Bytes} (hs : ∀ c ∈ s, c.toNat < 256) (room : ℕ) :
    Ground.urlDecode room (Ground.encodeURIComponent s) = s.take room := by
  rw [Ground.urlDecode_eq, Ground.plusToSpace_encode hs, qsPctDecode_take hs]

theorem length_le_encode (s : Bytes) : s.length ≤ (Ground.encodeURIComponent s).length := by
  induction s with
  | nil => exact Nat.zero_le _
  | cons c s ih =>
      rw [Ground.encode_cons, List.length_append, List.length_cons]
      split <;> simp <;> omega

theorem vehicle_seeds : vehicleKeys (some (seedQuery S)) = .job (.seed .drone (some (S.text.take 127))) := by
  have haction : Vehicle.Api.qparamStr (some (seedQuery S)) "action" 32 = some "seed".toList := by
    rw [Vehicle.Api.qparamStr_eq 32 _ isKey_action (by decide), qsGet_seedQuery S isKey_action, (get_seedQuery S).1]
    decide
  have hseed : Vehicle.Api.qparamStr (some (seedQuery S)) "seed" 128 = some (S.text.take 127) := by
    rw [Vehicle.Api.qparamStr_eq 128 _ isKey_seed (by decide), qsGet_seedQuery S isKey_seed, (get_seedQuery S).2,
      Option.map_some, urlDecode_take S.small, cstr_of_free fun h => S.free (List.mem_of_mem_take h)]
  have hne : S.text.take 127 ≠ [] := by
    rw [Ne, List.take_eq_nil_iff, not_or]
    exact ⟨by decide, S.nonempty⟩
  rw [vehicleKeys, haction, hseed]
  simp [hne]

theorem ground_seeds : groundKeys (some (seedQuery S)) = .job (.seed .gs (some
    (if (Ground.encodeURIComponent S.text).length < 128 then S.text else keyDefaultSeed))) := by
  obtain ⟨haction, hseed⟩ := get_seedQuery S
  have hne : Ground.encodeURIComponent S.text ≠ [] := by
    intro hnil
    have hlen := length_le_encode S.text
    rw [hnil] at hlen
    exact S.nonempty (List.length_eq_zero_iff.mp (Nat.le_zero.mp hlen))
  have hdecode : (Ground.encodeURIComponent S.text).length < 128 →
      cstr (Ground.qsPctDecode 127 (Ground.encodeURIComponent S.text)) = S.text := by
    intro hshort
    have hlen := length_le_encode S.text
    rw [qsPctDecode_take S.small, List.take_of_length_le (by omega), cstr_of_free S.free]
  have hget : ((some "seed".toList : Option Bytes).filter fun a => a.length < 32).getD [] = "seed".toList := rfl
  simp only [groundKeys, Option.bind_some, haction, hseed]
  rw [hget, if_neg (by decide), if_pos rfl]
  by_cases hshort : (Ground.encodeURIComponent S.text).length < 128
  · rw [if_pos ⟨hne, hshort⟩, if_pos hshort, hdecode hshort]
  · rw [if_neg fun h => hshort h.2, if_neg hshort]

/-! ## One pair -/

theorem default_short : (Ground.encodeURIComponent keyDefaultSeed).length = 7 := by decide

/-- Both ends derive their keys from the same text iff its encoded form is short. -/
theorem seeds_eq_iff : S.text.take 127 =
      (if (Ground.encodeURIComponent S.text).length < 128 then S.text else keyDefaultSeed) ↔
    (Ground.encodeURIComponent S.text).length < 128 := by
  constructor
  · intro heq
    by_contra hlong
    rw [if_neg hlong] at heq
    have hlen : S.text.length ≤ 127 := by
      have hseven : (S.text.take 127).length = 7 := by rw [heq]; rfl
      rw [List.length_take] at hseven
      omega
    rw [List.take_of_length_le hlen] at heq
    rw [heq, default_short] at hlong
    exact hlong (by decide)
  · intro hshort
    have hlen := length_le_encode S.text
    rw [if_pos hshort, List.take_of_length_le (by omega)]

/-- The files of a pair have one fingerprint. -/
theorem fingerprint_eq (na : Sodium) (seed : Bytes) :
    fingerprint na .drone (roleFile .drone (derivePair na seed)) =
      fingerprint na .gs (roleFile .gs (derivePair na seed)) := by
  have hpair := derivePair_matched na seed
  have hdrone : canonicalPair na .drone (roleFile .drone (derivePair na seed)) =
      (derivePair na seed).dronePk ++ (derivePair na seed).gsPk := by
    rw [canonicalPair, roleFile, List.take_left' hpair.droneLength, List.drop_left' hpair.droneLength, hpair.drone]
  have hgs : canonicalPair na .gs (roleFile .gs (derivePair na seed)) =
      (derivePair na seed).dronePk ++ (derivePair na seed).gsPk := by
    rw [canonicalPair, roleFile, List.take_left' hpair.gsLength, List.drop_left' hpair.gsLength, hpair.gs]
  rw [fingerprint, fingerprint, hdrone, hgs]

/-- What the processes of an end do that serves a call, any number of times: the job it comes to, and
showing the fingerprint. -/
def Serves (role : Role) (call : KeysCall) : Multicall.Event → Prop
  | .begin _ job => call = .job job ∨ job = .fingerprint role
  | _ => True

/-- The hashes a run shows, when all it writes is a key of a passphrase. -/
theorem shown_of_seeded (na : Sodium) {base : Base} {role : Role} {seed : Bytes} {files : Files Bytes UInt8}
    (hfiles : files.content base.name = none) {es : List Multicall.Event}
    (hes : ∀ e ∈ es, Serves role (.job (.seed role (some seed))) e) {p : Pid} {role' : Role} {text : Bytes}
    (hshown : .printed p role' (.hash text) ∈ (keyFile na base).trace (Disk.boot base files) es) :
    text = fingerprint na role' (roleFile role (derivePair na (seedOr (some seed)))) := by
  have hwrites : ∀ e ∈ es, e.Writes na (· = roleFile role (derivePair na (seedOr (some seed)))) := by
    intro e he
    have hserves := hes e he
    cases e with
    | begin p job =>
        rcases hserves with heq | rfl
        · cases heq
          rfl
        · trivial
    | _ => trivial
  obtain ⟨kf, rfl, rfl⟩ := (run_fresh hfiles hwrites).2 _ hshown
  rw [List.take_of_length_le (length_derived na role _).le]

end Waybeam.Link
