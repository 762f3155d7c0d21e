/-
# `Waybeam.Multicall.KeyFile` — the key file and who writes it

A unit has one key file, and many processes that want it.  At the first start each tunnel makes a
default key if it finds none; the web pages overwrite the key at any time; whoever starts reads it.
All writing goes through `write_atomic`: a new file next to the old one, filled, then renamed.  Here
every system call is a step of its own, so that any other process can do anything in between, and
each may fail or its process die before it:

    idle - ready - absent - writing - created - filling - closing - moving
                                                                  ` unlinking
                 ` reading - hashing

Whatever happens, the file is a register: it is replaced as a whole at the rename, and what a
reader sees is what it held when it was opened (`run_register`).
-/
import Waybeam.Files
import Waybeam.Machine
import Waybeam.Multicall.ConfigEnv
import Waybeam.Multicall.Keyseed

namespace Waybeam.Multicall

open Text

/-! ## Keys -/

/-- What the keys need of libsodium, and what it documents of that: a secret key of a pair has 32
bytes, as has what is computed from one, which is the pair's public key. -/
structure Sodium where
  argon2i : Bytes → List UInt8
  seedKeypair : List UInt8 → List UInt8 × List UInt8
  scalarmultBase : List UInt8 → List UInt8
  generichash : List UInt8 → List UInt8
  length_secret : ∀ seed, (seedKeypair seed).2.length = 32
  length_base : ∀ sk, (scalarmultBase sk).length = 32
  base_secret : ∀ seed, scalarmultBase (seedKeypair seed).2 = (seedKeypair seed).1

/-- The keys of both ends. -/
structure KeyPair where
  dronePk : List UInt8
  droneSk : List UInt8
  gsPk : List UInt8
  gsSk : List UInt8

/-- `WFB_KEY_DEFAULT_SEED` -/
def keyDefaultSeed : Bytes := "Waybeam".toList

/-- `if (!seed || !*seed) seed = WFB_KEY_DEFAULT_SEED;` -/
def seedOr (seed : Option Bytes) : Bytes :=
  match seed with
  | none | some [] => keyDefaultSeed
  | some s => s

/-- `derive_pair`, where libsodium does its part. -/
def derivePair (na : Sodium) (seed : Bytes) : KeyPair :=
  let kseed := na.argon2i seed
  let drone := na.seedKeypair (kseed.take 32)
  let gs := na.seedKeypair ((kseed.drop 32).take 32)
  { dronePk := drone.1, droneSk := drone.2, gsPk := gs.1, gsSk := gs.2 }

/-- `unsigned char sk[crypto_box_SECRETKEYBYTES]` -/
abbrev Secret := {sk : List UInt8 // sk.length = 32}

/-- Two pairs of `crypto_box_keypair`, from the secret keys it drew. -/
def drawnPair (na : Sodium) (secrets : Secret × Secret) : KeyPair where
  dronePk := na.scalarmultBase secrets.1
  droneSk := secrets.1
  gsPk := na.scalarmultBase secrets.2
  gsSk := secrets.2

/-- The public keys are those of the secret ones. -/
structure KeyPair.Matched (na : Sodium) (k : KeyPair) : Prop where
  droneLength : k.droneSk.length = 32
  gsLength : k.gsSk.length = 32
  drone : na.scalarmultBase k.droneSk = k.dronePk
  gs : na.scalarmultBase k.gsSk = k.gsPk

theorem derivePair_matched (na : Sodium) (seed : Bytes) : (derivePair na seed).Matched na :=
  ⟨na.length_secret _, na.length_secret _, na.base_secret _, na.base_secret _⟩

/-- What `write_role_file` writes. -/
def roleFile (role : Role) (k : KeyPair) : List UInt8 :=
  match role with
  | .gs => k.gsSk ++ k.dronePk
  | .drone => k.droneSk ++ k.gsPk

/-- `WFB_KEY_BYTES` -/
def keyBytes : ℕ := 64

/-- The `buf[64]` of `wfb_write_key_raw`. -/
abbrev RawKey := {kf : List UInt8 // kf.length = keyBytes}

/-- `drone_pk ‖ gs_pk`, from the file of one end. -/
def canonicalPair (na : Sodium) (role : Role) (kf : List UInt8) : List UInt8 :=
  match role with
  | .gs => kf.drop 32 ++ na.scalarmultBase (kf.take 32)
  | .drone => na.scalarmultBase (kf.take 32) ++ kf.drop 32

/-- The hash of the pair, as `wfb_key_fingerprint` prints it. -/
def fingerprint (na : Sodium) (role : Role) (kf : List UInt8) : Bytes :=
  hexBytes ((na.generichash (canonicalPair na role kf)).take 4)

/-! ## Processes -/

abbrev Pid := ℕ

/-- What a process is to do with the key file. -/
inductive Job where
  | ensure (role : Role) (seed : Option Bytes)
  | seed (role : Role) (seed : Option Bytes)
  | random (role : Role)
  | raw (buf : RawKey)
  | fingerprint (role : Role)

/-- The file `write_atomic` made: its name behind `.wfbkey.`, and what is to go into it. -/
structure Temp where
  suffix : Bytes
  file : ℕ
  buf : List UInt8
  guarded : Bool

/-- Where a process is: before the call it makes next.  `guarded` is a write of `wfb_ensure_key`. -/
inductive Phase where
  | idle
  | ready (job : Job)
  | absent (role : Role) (seed : Option Bytes)
  | writing (buf : List UInt8) (guarded : Bool)
  | created (w : Temp)
  | filling (w : Temp) (off : ℕ)
  | closing (w : Temp) (ok : Bool)
  | moving (w : Temp)
  | unlinking (w : Temp)
  | reading (role : Role) (file : ℕ) (got : List UInt8)
  | hashing (role : Role) (kf : List UInt8)

/-- What a call answers: whether it went well, how many bytes went through (after the first), the
name `mkstemp` chose and the secret keys that were drawn. -/
structure Ret where
  ok : Bool := true
  count : ℕ := 0
  suffix : Bytes := []
  secrets : Secret × Secret := (⟨List.replicate 32 0, rfl⟩, ⟨List.replicate 32 0, rfl⟩)

/-- What `wfb_key_fingerprint` prints, and why. -/
inductive Printed where
  | missing
  | unread
  | invalid
  | failed
  | hash (text : Bytes)
deriving DecidableEq

def Printed.text : Printed → Bytes
  | .missing => "none".toList
  | .unread | .invalid => "invalid".toList
  | .failed => []
  | .hash text => text

inductive Obs where
  | checked (p : Pid) (present : Bool)
  | opened (p : Pid)
  | replaced (p : Pid) (buf : List UInt8) (guarded : Bool)
  | returned (p : Pid) (rc : ℤ)
  | printed (p : Pid) (role : Role) (what : Printed)

inductive Event where
  | begin (p : Pid) (job : Job)
  | call (p : Pid) (r : Ret)
  | kill (p : Pid)

/-- The names of `mkstemp`. -/
def tempName (suffix : Bytes) : Bytes := ".wfbkey.".toList ++ suffix

/-- The name of the key file: no temporary one. -/
structure Base where
  name : Bytes
  plain : ∀ suffix, tempName suffix ≠ name

/-- The directory of the key file, and the processes. -/
structure Disk (base : Base) where
  files : Files Bytes UInt8
  phase : Pid → Phase

namespace Disk

variable {base : Base} (na : Sodium) (d : Disk base) (p : Pid)

def goto (x : Phase) : Disk base := { d with phase := Function.update d.phase p x }

def wrote (rc : ℤ) : Disk base × List Obs := (d.goto p .idle, [.returned p rc])

def prints (role : Role) (what : Printed) : Disk base × List Obs :=
  (d.goto p .idle, [.printed p role what])

/-- The first call of a job. -/
def first (r : Ret) : Job → Disk base × List Obs
  | .ensure role seed =>
      if (d.files.dir base.name).isSome then (d.goto p .idle, [.checked p true, .returned p 0])
      else (d.goto p (.absent role seed), [.checked p false])
  | .seed role seed =>
      if r.ok then (d.goto p (.writing (roleFile role (derivePair na (seedOr seed))) false), [])
      else d.wrote p (-1)
  | .random role =>
      if r.ok then (d.goto p (.writing (roleFile role (drawnPair na r.secrets)) false), [])
      else d.wrote p (-1)
  -- no call before `mkstemp`
  | .raw buf => (d.goto p (.writing buf false), [])
  | .fingerprint role =>
      match d.files.dir base.name with
      | some i => if r.ok then (d.goto p (.reading role i []), [.opened p]) else d.prints p role .missing
      | none => d.prints p role .missing

/-- `mkstemp`: a name that is taken is no answer of it. -/
def mkstemp (buf : List UInt8) (guarded : Bool) (r : Ret) : Disk base × List Obs :=
  if r.ok ∧ d.files.dir (tempName r.suffix) = none then
    ({ files := d.files.creat (tempName r.suffix)
       phase := Function.update d.phase p (.created ⟨r.suffix, d.files.next, buf, guarded⟩) }, [])
  else d.wrote p (-1)

/-- One `write` of the loop; it takes a byte at least. -/
def write (w : Temp) (off : ℕ) (r : Ret) : Disk base × List Obs :=
  if off < w.buf.length then
    if r.ok then
      let n := min (r.count + 1) (w.buf.length - off)
      ({ files := d.files.append w.file ((w.buf.drop off).take n)
         phase := Function.update d.phase p (.filling w (off + n)) }, [])
    else (d.goto p (.closing w false), [])
  else (d.goto p (.closing w true), [])

def rename (w : Temp) (r : Ret) : Disk base × List Obs :=
  if r.ok then
    ({ files := d.files.rename (tempName w.suffix) base.name
       phase := Function.update d.phase p .idle }, [.replaced p w.buf w.guarded, .returned p 0])
  else (d.goto p (.unlinking w), [])

/-- `unlink`, of which nobody looks at the result. -/
def unlink (w : Temp) (r : Ret) : Disk base × List Obs :=
  ({ files := if r.ok then d.files.unlink (tempName w.suffix) else d.files
     phase := Function.update d.phase p .idle }, [.returned p (-1)])

/-- One `read` of `fread`; it gives a byte at least, or the file is at its end. -/
def read (role : Role) (i : ℕ) (got : List UInt8) (r : Ret) : Disk base × List Obs :=
  if r.ok then
    let more := ((d.files.data i).drop got.length).take (min (r.count + 1) (keyBytes - got.length))
    let got := got ++ more
    if got.length = keyBytes then (d.goto p (.hashing role got), [])
    else if more = [] then d.prints p role .invalid
    else (d.goto p (.reading role i got), [])
  else d.prints p role .unread

/-- The call a process makes next. -/
def call (r : Ret) : Disk base × List Obs :=
  match d.phase p with
  | .idle => (d, [])
  | .ready job => d.first na p r job
  | .absent role seed =>
      if r.ok then (d.goto p (.writing (roleFile role (derivePair na (seedOr seed))) true), [])
      else d.wrote p (-1)
  | .writing buf guarded => d.mkstemp p buf guarded r
  | .created w => (d.goto p (if r.ok then .filling w 0 else .closing w false), [])
  | .filling w off => d.write p w off r
  | .closing w ok => (d.goto p (if ok && r.ok then .moving w else .unlinking w), [])
  | .moving w => d.rename p w r
  | .unlinking w => d.unlink p w r
  | .reading role i got => d.read p role i got r
  | .hashing role kf => d.prints p role (if r.ok then .hash (fingerprint na role kf) else .failed)

/-- A process begins a job when it has none, makes a call, or dies. -/
def step : Event → Disk base × List Obs
  | .begin p job =>
      match d.phase p with
      | .idle => (d.goto p (.ready job), [])
      | _ => (d, [])
  | .call p r => d.call na p r
  | .kill p => (d.goto p .idle, [])

end Disk

/-- The machine of the key file `base`. -/
def keyFile (na : Sodium) (base : Base) : Machine (Disk base) Event Obs := ⟨Disk.step na⟩

/-! ## The register -/

/-- The key file as its users see it: what it holds, and what it held when each of them looked. -/
structure Register where
  content : Option (List UInt8)
  seen : Pid → Option (List UInt8)

/-- What may be printed of a file. -/
def Printed.fits (na : Sodium) (role : Role) : Printed → Option (List UInt8) → Bool
  | .invalid, some kf => kf.length < keyBytes
  | .hash text, some kf => keyBytes ≤ kf.length && text = fingerprint na role (kf.take keyBytes)
  | .invalid, none | .hash _, none => false
  | _, _ => true

def Register.upd (g : Register) : Obs → Register
  | .checked p _ | .opened p => { g with seen := Function.update g.seen p g.content }
  | .replaced _ buf _ => { g with content := some buf }
  | _ => g

def Register.ok (na : Sodium) (g : Register) : Obs → Bool
  | .checked _ present => present = g.content.isSome
  | .opened _ => g.content.isSome
  | .replaced p _ guarded => !guarded || (g.seen p).isNone
  | .returned _ rc => rc ≠ 0 || g.content.isSome
  | .printed p role what => what.fits na role (g.seen p)

/-- A file that is replaced at once, and of which a reader sees what it held when it was opened. -/
def register (na : Sodium) : Monitor Obs Register := ⟨Register.upd, Register.ok na⟩

/-! ## What is true at each point -/

def Phase.hold : Phase → Files.Hold Bytes
  | .created w | .filling w _ | .closing w _ | .moving w | .unlinking w => .temp (tempName w.suffix) w.file
  | .reading _ i _ => .reader i
  | _ => .nothing

/-- What a process at this point knows of its file, and of the key file when it looked. -/
def Phase.At (data : ℕ → List UInt8) (seen : Option (List UInt8)) : Phase → Prop
  | .absent _ _ => seen = none
  | .writing _ guarded => guarded = true → seen = none
  | .created w => data w.file = [] ∧ (w.guarded = true → seen = none)
  | .filling w off => data w.file = w.buf.take off ∧ (w.guarded = true → seen = none)
  | .closing w ok => (ok = true → data w.file = w.buf) ∧ (w.guarded = true → seen = none)
  | .moving w => data w.file = w.buf ∧ (w.guarded = true → seen = none)
  | .reading _ i got => seen = some (data i) ∧ got = (data i).take got.length ∧ got.length < keyBytes
  | .hashing _ kf => ∃ whole, seen = some whole ∧ keyBytes ≤ whole.length ∧ kf = whole.take keyBytes
  | _ => True

theorem Phase.At.keep {x : Phase} {data data' : ℕ → List UInt8} {seen : Option (List UInt8)} (h : x.At data seen)
    (hdata : ∀ i, x.hold.file = some i → data' i = data i) : x.At data' seen := by
  cases x with
  | created w | filling w off | closing w ok | moving w =>
      simp only [Phase.At] at h ⊢
      rwa [hdata w.file rfl]
  | reading role i got =>
      simp only [Phase.At] at h ⊢
      rwa [hdata i rfl]
  | _ => exact h

structure Inv {base : Base} (d : Disk base) (g : Register) : Prop where
  held : Files.Held base.name d.files fun p => (d.phase p).hold
  content : d.files.content base.name = g.content
  here : ∀ p, (d.phase p).At d.files.data (g.seen p)

variable {base : Base} {na : Sodium} {d : Disk base} {g : Register} {p : Pid}

/-- One process moves, and what the others hold stays as it is. -/
theorem Inv.move (h : Inv d g) {x : Phase} {f : Files Bytes UInt8} {g' : Register}
    (hheld : Files.Held base.name f (Function.update (fun q => (d.phase q).hold) p x.hold))
    (hcontent : f.content base.name = g'.content) (hseen : ∀ q, q ≠ p → g'.seen q = g.seen q)
    (hdata : ∀ q i, q ≠ p → (d.phase q).hold.file = some i → f.data i = d.files.data i)
    (hx : x.At f.data (g'.seen p)) : Inv (⟨f, Function.update d.phase p x⟩ : Disk base) g' where
  held := by
    have hcomp : (fun q => (Function.update d.phase p x q).hold) =
        Function.update (fun q => (d.phase q).hold) p x.hold :=
      Function.comp_update Phase.hold d.phase p x
    exact hcomp ▸ hheld
  content := hcontent
  here q := by
    by_cases hqp : q = p
    · subst hqp
      show (Function.update d.phase q x q).At f.data (g'.seen q)
      rwa [Function.update_self]
    · show (Function.update d.phase p x q).At f.data (g'.seen q)
      rw [Function.update_of_ne hqp, hseen q hqp]
      exact (h.here q).keep fun i hi => hdata q i hqp hi

theorem Inv.leave (h : Inv d g) {x : Phase} (hnone : x.hold = .nothing) (hx : x.At d.files.data (g.seen p)) :
    Inv (d.goto p x) g := by
  refine h.move ?_ h.content (fun _ _ => rfl) (fun _ _ _ _ => rfl) hx
  rw [hnone]
  exact h.held.release p

theorem Inv.stay (h : Inv d g) {x : Phase} (hsame : x.hold = (d.phase p).hold) (hx : x.At d.files.data (g.seen p)) :
    Inv (d.goto p x) g := by
  refine h.move ?_ h.content (fun _ _ => rfl) (fun _ _ _ _ => rfl) hx
  rw [hsame, Function.update_eq_self]
  exact h.held

theorem Inv.wrote (h : Inv d g) : (register na).wp g (d.wrote p (-1)) Inv :=
  wp_emit rfl (h.leave rfl trivial)

theorem Inv.prints (h : Inv d g) {role : Role} {what : Printed} (hfits : what.fits na role (g.seen p)) :
    (register na).wp g (d.prints p role what) Inv :=
  wp_emit hfits (h.leave rfl trivial)

/-- Looking at the key file. -/
theorem Inv.looks (h : Inv d g) {x : Phase}
    (hheld : Files.Held base.name d.files (Function.update (fun q => (d.phase q).hold) p x.hold))
    (hx : x.At d.files.data g.content) :
    Inv (d.goto p x) { g with seen := Function.update g.seen p g.content } := by
  refine h.move hheld h.content (fun q hqp => Function.update_of_ne hqp ..) (fun _ _ _ _ => rfl) ?_
  show x.At d.files.data (Function.update g.seen p g.content p)
  rwa [Function.update_self]

theorem Inv.isSome (h : Inv d g) : (d.files.dir base.name).isSome = g.content.isSome := by
  rw [← h.content, Files.content, Option.isSome_map]

theorem Inv.content_of_dir (h : Inv d g) {i : ℕ} (hi : d.files.dir base.name = some i) :
    g.content = some (d.files.data i) := by
  rw [← h.content, Files.content, hi]
  rfl

/-! ## The calls -/

theorem first_inv (h : Inv d g) (r : Ret) (job : Job) : (register na).wp g (d.first na p r job) Inv := by
  cases job with
  | ensure role seed =>
      dsimp only [Disk.first]
      split
      · next hsome =>
          have hpresent : g.content.isSome = true := h.isSome ▸ hsome
          refine ⟨⟨decide_eq_true hpresent.symm, ?_, trivial⟩, h.looks (h.held.release p) trivial⟩
          exact hpresent
      · next hnone =>
          have habsent : g.content.isSome = false := by
            rw [← h.isSome]
            exact Bool.eq_false_iff.mpr hnone
          refine wp_emit (decide_eq_true habsent.symm) (h.looks (h.held.release p) ?_)
          exact Option.isNone_iff_eq_none.mp (Option.isSome_eq_false_iff.mp habsent)
  | seed role seed =>
      dsimp only [Disk.first]
      split
      · exact wp_pure (h.leave rfl fun hguarded => absurd hguarded Bool.false_ne_true)
      · exact h.wrote
  | random role =>
      dsimp only [Disk.first]
      split
      · exact wp_pure (h.leave rfl fun hguarded => absurd hguarded Bool.false_ne_true)
      · exact h.wrote
  | raw buf => exact wp_pure (h.leave rfl fun hguarded => absurd hguarded Bool.false_ne_true)
  | fingerprint role =>
      dsimp only [Disk.first]
      split
      · next i hi =>
          split
          · refine wp_emit ?_ (h.looks (h.held.opens hi p) ?_)
            · show g.content.isSome = true
              rw [h.content_of_dir hi]
              rfl
            · exact ⟨h.content_of_dir hi, rfl, by decide⟩
          · exact h.prints rfl
      · exact h.prints rfl

theorem mkstemp_inv (h : Inv d g) {buf : List UInt8} {guarded : Bool} (hseen : guarded = true → g.seen p = none)
    (r : Ret) : (register na).wp g (d.mkstemp p buf guarded r) Inv := by
  unfold Disk.mkstemp
  split
  · next hfree =>
      have hplain := base.plain r.suffix
      refine wp_pure (h.move (h.held.creat hfree.2 hplain p) ?_ (fun _ _ => rfl) ?_ ⟨?_, hseen⟩)
      · rw [Files.creat_content _ hplain, h.content]
      · exact fun q i _ hi => Files.creat_data _ _ (h.held.ne_next hi)
      · exact Function.update_self ..
  · exact h.wrote

theorem write_inv (h : Inv d g) {w : Temp} {off : ℕ} (hp : d.phase p = .filling w off) (r : Ret) :
    (register na).wp g (d.write p w off r) Inv := by
  obtain ⟨hfilled, hseen⟩ : d.files.data w.file = w.buf.take off ∧ _ := hp ▸ h.here p
  have hhold : (d.phase p).hold = .temp (tempName w.suffix) w.file := by rw [hp]; rfl
  unfold Disk.write
  split
  · split
    · refine wp_pure (h.move ?_ ?_ (fun _ _ => rfl) ?_ ⟨?_, hseen⟩)
      · rw [show Phase.hold (.filling w _) = (d.phase p).hold from hhold.symm, Function.update_eq_self]
        exact h.held.append w.file _
      · rw [h.held.append_content hhold, h.content]
      · exact fun q i hqp hi => Files.append_data _ _ (h.held.ne_of_temp hhold hqp hi)
      · rw [Files.append_data_self, hfilled, List.take_add]
    · exact wp_pure (h.stay hhold.symm ⟨fun hok => absurd hok Bool.false_ne_true, hseen⟩)
  · next hend =>
      refine wp_pure (h.stay hhold.symm ⟨fun _ => ?_, hseen⟩)
      rw [hfilled, List.take_of_length_le (Nat.not_lt.mp hend)]

theorem rename_inv (h : Inv d g) {w : Temp} (hp : d.phase p = .moving w) (r : Ret) :
    (register na).wp g (d.rename p w r) Inv := by
  obtain ⟨hfilled, hseen⟩ : d.files.data w.file = w.buf ∧ _ := hp ▸ h.here p
  have hhold : (d.phase p).hold = .temp (tempName w.suffix) w.file := by rw [hp]; rfl
  unfold Disk.rename
  split
  · refine ⟨⟨?_, rfl, trivial⟩, h.move (h.held.rename hhold) ?_ (fun _ _ => rfl) (fun _ _ _ _ => rfl) trivial⟩
    · show (!w.guarded || (g.seen p).isNone) = true
      cases hguarded : w.guarded with
      | false => rfl
      | true =>
          rw [hseen hguarded]
          rfl
    · obtain ⟨hdir, hne⟩ := h.held.temp p _ _ hhold
      rw [Files.rename_content _ hne hdir, hfilled]
      rfl
  · exact wp_pure (h.stay hhold.symm trivial)

theorem unlink_inv (h : Inv d g) {w : Temp} (hp : d.phase p = .unlinking w) (r : Ret) :
    (register na).wp g (d.unlink p w r) Inv := by
  have hhold : (d.phase p).hold = .temp (tempName w.suffix) w.file := by rw [hp]; rfl
  unfold Disk.unlink
  refine wp_emit rfl ?_
  split
  · refine h.move (h.held.unlink hhold) ?_ (fun _ _ => rfl) (fun _ _ _ _ => rfl) trivial
    rw [Files.unlink_content _ (h.held.temp p _ _ hhold).2, h.content]
    rfl
  · exact h.leave rfl trivial

theorem read_inv (h : Inv d g) {role : Role} {i : ℕ} {got : List UInt8} (hp : d.phase p = .reading role i got)
    (r : Ret) : (register na).wp g (d.read p role i got r) Inv := by
  obtain ⟨hseen, hgot, hroom⟩ : g.seen p = some (d.files.data i) ∧ _ ∧ _ := hp ▸ h.here p
  unfold Disk.read
  split
  · dsimp only
    generalize hn : min (r.count + 1) (keyBytes - got.length) = n
    have hnpos : 0 < n := by omega
    have hmore : got ++ ((d.files.data i).drop got.length).take n = (d.files.data i).take (got.length + n) := by
      rw [List.take_add, ← hgot]
    rw [hmore]
    have hlength : ((d.files.data i).take (got.length + n)).length = min (got.length + n) (d.files.data i).length :=
      List.length_take
    split
    · next hfull =>
        refine wp_pure (h.leave rfl ⟨_, hseen, by omega, ?_⟩)
        rw [show got.length + n = keyBytes by omega]
    · next hfull =>
        split
        · next hend =>
            refine h.prints ?_
            rw [hseen]
            have hshort : (d.files.data i).length ≤ got.length := by
              rcases List.take_eq_nil_iff.mp hend with h0 | h0
              · omega
              · exact List.drop_eq_nil_iff.mp h0
            exact decide_eq_true (by omega)
        · refine wp_pure (h.stay (by rw [hp]; rfl) ⟨hseen, ?_, by omega⟩)
          rw [List.length_take]
          exact List.take_eq_take_min ..
  · exact h.prints rfl

theorem step_inv (h : Inv d g) (e : Event) : (register na).wp g (d.step na e) Inv := by
  cases e with
  | begin p job =>
      unfold Disk.step
      dsimp only
      split
      · exact wp_pure (h.leave rfl trivial)
      · exact wp_pure h
  | kill p => exact wp_pure (h.leave rfl trivial)
  | call p r =>
      show (register na).wp g (d.call na p r) Inv
      have hhere := h.here p
      unfold Disk.call
      cases hp : d.phase p with
      | idle => exact wp_pure h
      | ready job => exact first_inv h r job
      | absent role seed =>
          dsimp only
          split
          · exact wp_pure (h.leave rfl fun _ => by rwa [hp] at hhere)
          · exact h.wrote
      | writing buf guarded => exact mkstemp_inv h (by rwa [hp] at hhere) r
      | created w =>
          rw [hp] at hhere
          refine wp_pure (h.stay ?_ ?_)
          · rw [hp]
            split <;> rfl
          · split
            · exact hhere
            · exact ⟨fun hok => absurd hok Bool.false_ne_true, hhere.2⟩
      | filling w off => exact write_inv h hp r
      | closing w ok =>
          rw [hp] at hhere
          refine wp_pure (h.stay ?_ ?_)
          · rw [hp]
            split <;> rfl
          · split
            · next hok => exact ⟨hhere.1 (Bool.and_eq_true_iff.mp hok).1, hhere.2⟩
            · trivial
      | moving w => exact rename_inv h hp r
      | unlinking w => exact unlink_inv h hp r
      | reading role i got => exact read_inv h hp r
      | hashing role kf =>
          obtain ⟨whole, hseen, hlong, rfl⟩ : ∃ whole, _ ∧ _ ∧ _ := hp ▸ hhere
          refine h.prints ?_
          rw [hseen]
          split
          · exact Bool.and_eq_true_iff.mpr ⟨decide_eq_true hlong, decide_eq_true rfl⟩
          · rfl

/-! ## Runs -/

/-- The processes before they begin anything. -/
def Disk.boot (base : Base) (files : Files Bytes UInt8) : Disk base := ⟨files, fun _ => .idle⟩

/-- The key file as it was found. -/
def Register.boot (base : Base) (files : Files Bytes UInt8) : Register := ⟨files.content base.name, fun _ => none⟩

theorem boot_inv (base : Base) (files : Files Bytes UInt8) : Inv (Disk.boot base files) (Register.boot base files) where
  held := Files.Held.start files
  content := rfl
  here _ := trivial

theorem run_inv (na : Sodium) (base : Base) (files : Files Bytes UInt8) (es : List Event) :
    (register na).Accepts (Register.boot base files) ((keyFile na base).trace (Disk.boot base files) es) ∧
      Inv ((keyFile na base).run (Disk.boot base files) es)
        ((register na).after (Register.boot base files) ((keyFile na base).trace (Disk.boot base files) es)) := by
  have hstep : ∀ (d : Disk base) g e, Inv d g → True → (register na).wp g ((keyFile na base).step d e) Inv :=
    fun _ _ e h _ => step_inv h e
  have hall : (keyFile na base).Meets (fun _ _ => True) (Disk.boot base files) es :=
    Machine.Meets.of_forall fun _ _ => trivial
  exact Machine.run_wp hstep (boot_inv base files) hall

/-- In every run, whatever the processes do, whatever fails and wherever they die: the key file is a
register.  It is replaced at once, by a whole key; it stays once it is there; `wfb_ensure_key`
replaces it only if it was missing when it looked; and what is printed is the fingerprint of what it
held when it was opened. -/
theorem run_register (na : Sodium) (base : Base) (files : Files Bytes UInt8) (es : List Event) :
    (register na).Accepts (Register.boot base files) ((keyFile na base).trace (Disk.boot base files) es) ∧
      ((keyFile na base).run (Disk.boot base files) es).files.content base.name =
        ((register na).after (Register.boot base files)
          ((keyFile na base).trace (Disk.boot base files) es)).content :=
  ⟨(run_inv na base files es).1, (run_inv na base files es).2.content⟩

/-! ## Which keys -/

/-- What a job may write, whatever is drawn. -/
def Job.Writes (na : Sodium) (Good : List UInt8 → Prop) : Job → Prop
  | .ensure role text | .seed role text => Good (roleFile role (derivePair na (seedOr text)))
  | .random role => ∀ secrets, Good (roleFile role (drawnPair na secrets))
  | .raw buf => Good buf
  | .fingerprint _ => True

def Event.Writes (na : Sodium) (Good : List UInt8 → Prop) : Event → Prop
  | .begin _ job => job.Writes na Good
  | _ => True

/-- What a process is going to write. -/
def Phase.Writes (na : Sodium) (Good : List UInt8 → Prop) : Phase → Prop
  | .ready job => job.Writes na Good
  | .absent role seed => Good (roleFile role (derivePair na (seedOr seed)))
  | .writing buf _ => Good buf
  | .created w | .filling w _ | .closing w _ | .moving w => Good w.buf
  | _ => True

/-- After a step the processes are still going to write such keys, and it put no other into the file. -/
def Keeps (na : Sodium) (Good : List UInt8 → Prop) (r : Disk base × List Obs) : Prop :=
  (∀ p, (r.1.phase p).Writes na Good) ∧ ∀ o ∈ r.2, ∀ p buf guarded, o = .replaced p buf guarded → Good buf

variable {Good : List UInt8 → Prop}

theorem writes_update {phase : Pid → Phase} (h : ∀ q, (phase q).Writes na Good) {x : Phase} (hx : x.Writes na Good)
    (p : Pid) : ∀ q, (Function.update phase p x q).Writes na Good := by
  intro q
  by_cases hqp : q = p
  · subst hqp
    rwa [Function.update_self]
  · rw [Function.update_of_ne hqp]
    exact h q

theorem Keeps.to {files : Files Bytes UInt8} {x : Phase} {os : List Obs} (h : ∀ q, (d.phase q).Writes na Good)
    (hx : x.Writes na Good) (hos : ∀ o ∈ os, ∀ p buf guarded, o = .replaced p buf guarded → Good buf := by simp) :
    Keeps na Good ((⟨files, Function.update d.phase p x⟩ : Disk base), os) :=
  ⟨writes_update h hx p, hos⟩

theorem first_keeps (h : ∀ q, (d.phase q).Writes na Good) (r : Ret) {job : Job} (hjob : job.Writes na Good) :
    Keeps na Good (d.first na p r job) := by
  cases job with
  | ensure role text =>
      dsimp only [Disk.first]
      split
      · exact .to h trivial
      · exact .to h hjob
  | seed role text =>
      dsimp only [Disk.first]
      split
      · exact .to h hjob
      · exact .to h trivial
  | random role =>
      dsimp only [Disk.first]
      split
      · exact .to h (hjob r.secrets)
      · exact .to h trivial
  | raw buf => exact .to h hjob
  | fingerprint role =>
      dsimp only [Disk.first]
      split
      · split <;> exact .to h trivial
      · exact .to h trivial

theorem call_keeps (h : ∀ q, (d.phase q).Writes na Good) (p : Pid) (r : Ret) : Keeps na Good (d.call na p r) := by
  have hhere := h p
  unfold Disk.call
  cases hp : d.phase p with
  | idle => exact ⟨h, fun o ho => absurd ho List.not_mem_nil⟩
  | ready job => exact first_keeps h r (by rwa [hp] at hhere)
  | absent role seed =>
      rw [hp] at hhere
      dsimp only
      split
      · exact .to h hhere
      · exact .to h trivial
  | writing buf guarded =>
      rw [hp] at hhere
      dsimp only [Disk.mkstemp]
      split
      · exact .to h hhere
      · exact .to h trivial
  | created w =>
      rw [hp] at hhere
      dsimp only
      split <;> exact .to h hhere
  | filling w off =>
      rw [hp] at hhere
      dsimp only [Disk.write]
      split
      · split <;> exact .to h hhere
      · exact .to h hhere
  | closing w ok =>
      rw [hp] at hhere
      dsimp only
      split
      · exact .to h hhere
      · exact .to h trivial
  | moving w =>
      rw [hp] at hhere
      dsimp only [Disk.rename]
      split
      · refine .to h trivial fun o ho p' buf guarded heq => ?_
        subst heq
        have hbuf : buf = w.buf := by
          rcases List.mem_cons.mp ho with ho | ho
          · cases ho
            rfl
          · cases List.mem_singleton.mp ho
        exact hbuf ▸ hhere
      · exact .to h trivial
  | unlinking w => exact .to h trivial
  | reading role i got =>
      dsimp only [Disk.read]
      split
      · split
        · exact .to h trivial
        · split <;> exact .to h trivial
      · exact .to h trivial
  | hashing role kf => exact .to h trivial

theorem step_keeps (h : ∀ q, (d.phase q).Writes na Good) {e : Event} (he : e.Writes na Good) :
    Keeps na Good (d.step na e) := by
  cases e with
  | begin p job =>
      dsimp only [Disk.step]
      split
      · exact .to h he
      · exact ⟨h, fun o ho => absurd ho List.not_mem_nil⟩
  | kill p => exact .to h trivial
  | call p r => exact call_keeps h p r

/-- What is printed is of such a key: its fingerprint, or that it is too short. -/
def Obs.Of (na : Sodium) (Good : List UInt8 → Prop) : Obs → Prop
  | .printed _ role (.hash text) => ∃ kf, Good kf ∧ text = fingerprint na role (kf.take keyBytes)
  | .printed _ _ .invalid => ∃ kf, Good kf ∧ kf.length < keyBytes
  | _ => True

/-- The register holds, and held when it was looked at, such keys only. -/
structure Register.All (g : Register) (Good : List UInt8 → Prop) : Prop where
  content : ∀ kf, g.content = some kf → Good kf
  seen : ∀ p kf, g.seen p = some kf → Good kf

theorem Register.All.look (hg : g.All Good) (p : Pid) :
    Register.All { g with seen := Function.update g.seen p g.content } Good where
  content := hg.content
  seen q kf hq := by
    replace hq : Function.update g.seen p g.content q = some kf := hq
    by_cases hqp : q = p
    · subst hqp
      rw [Function.update_self] at hq
      exact hg.content kf hq
    · rw [Function.update_of_ne hqp] at hq
      exact hg.seen q kf hq

theorem Register.All.upd (hg : g.All Good) {o : Obs} (ho : ∀ p buf guarded, o = .replaced p buf guarded → Good buf) :
    (g.upd o).All Good := by
  cases o with
  | checked p present => exact hg.look p
  | opened p => exact hg.look p
  | replaced p buf guarded =>
      refine ⟨fun kf hkf => ?_, hg.seen⟩
      cases hkf
      exact ho p buf guarded rfl
  | returned p rc => exact hg
  | printed p role what => exact hg

theorem Register.All.printed (hg : g.All Good) {o : Obs} (hok : g.ok na o = true) : o.Of na Good := by
  cases o with
  | printed p role what =>
      replace hok : what.fits na role (g.seen p) = true := hok
      cases hseen : g.seen p with
      | none =>
          rw [hseen] at hok
          cases what with
          | invalid => cases hok
          | hash text => cases hok
          | _ => trivial
      | some kf =>
          rw [hseen] at hok
          cases what with
          | invalid => exact ⟨kf, hg.seen p kf hseen, of_decide_eq_true hok⟩
          | hash text => exact ⟨kf, hg.seen p kf hseen, of_decide_eq_true (Bool.and_eq_true_iff.mp hok).2⟩
          | _ => trivial
  | _ => trivial

theorem accepts_all {os : List Obs} (hos : ∀ o ∈ os, ∀ p buf guarded, o = .replaced p buf guarded → Good buf)
    (hg : g.All Good) (hacc : (register na).Accepts g os) :
    ((register na).after g os).All Good ∧ ∀ o ∈ os, o.Of na Good := by
  induction os generalizing g with
  | nil => exact ⟨hg, fun o ho => absurd ho List.not_mem_nil⟩
  | cons o os ih =>
      obtain ⟨hok, hrest⟩ := (Monitor.accepts_cons ..).mp hacc
      obtain ⟨hafter, hof⟩ := ih (fun o ho => hos o (List.mem_cons_of_mem _ ho))
        (hg.upd fun p buf guarded => hos o List.mem_cons_self p buf guarded) hrest
      exact ⟨hafter, List.forall_mem_cons.mpr ⟨hg.printed hok, hof⟩⟩

theorem trace_keeps {d : Disk base} (h : ∀ q, (d.phase q).Writes na Good) {es : List Event}
    (hes : ∀ e ∈ es, e.Writes na Good) :
    ∀ o ∈ (keyFile na base).trace d es, ∀ p buf guarded, o = .replaced p buf guarded → Good buf := by
  induction es generalizing d with
  | nil => exact fun o ho => absurd ho List.not_mem_nil
  | cons e es ih =>
      obtain ⟨hphase, hobs⟩ : Keeps na Good ((keyFile na base).step d e) := step_keeps h (hes e List.mem_cons_self)
      intro o ho
      rcases List.mem_append.mp ho with ho | ho
      · exact hobs o ho
      · exact ih hphase (fun e he => hes e (List.mem_cons_of_mem _ he)) o ho

/-- If the key that was found and all that may be written are such keys, so is whatever is read. -/
theorem run_all {files : Files Bytes UInt8} (hfiles : ∀ kf, files.content base.name = some kf → Good kf)
    {es : List Event} (hes : ∀ e ∈ es, e.Writes na Good) :
    (∀ kf, ((keyFile na base).run (Disk.boot base files) es).files.content base.name = some kf → Good kf) ∧
      ∀ o ∈ (keyFile na base).trace (Disk.boot base files) es, o.Of na Good := by
  obtain ⟨hacc, hinv⟩ := run_inv na base files es
  have hboot : (Register.boot base files).All Good := ⟨hfiles, fun _ _ h => by cases h⟩
  have hwritten := trace_keeps (d := Disk.boot base files) (fun _ => trivial) hes
  obtain ⟨hafter, hof⟩ := accepts_all hwritten hboot hacc
  exact ⟨fun kf hkf => hafter.content kf (hinv.content ▸ hkf), hof⟩

/-- If no key was found and all that may be written is one key, the file stays missing or is that key,
and so is whatever is read. -/
theorem run_fresh {files : Files Bytes UInt8} (hfiles : files.content base.name = none) {key : List UInt8}
    {es : List Event} (hes : ∀ e ∈ es, e.Writes na (· = key)) :
    (((keyFile na base).run (Disk.boot base files) es).files.content base.name = none ∨
      ((keyFile na base).run (Disk.boot base files) es).files.content base.name = some key) ∧
      ∀ o ∈ (keyFile na base).trace (Disk.boot base files) es, o.Of na (· = key) := by
  have hfound : ∀ kf, files.content base.name = some kf → kf = key := by
    intro kf hkf
    rw [hfiles] at hkf
    cases hkf
  obtain ⟨hcontent, hof⟩ := run_all hfound hes
  refine ⟨?_, hof⟩
  cases hrun : ((keyFile na base).run (Disk.boot base files) es).files.content base.name with
  | none => exact .inl rfl
  | some kf => exact .inr (congrArg some (hcontent kf hrun))

/-! ## The first start -/

theorem length_derived (na : Sodium) (role : Role) (seed : Bytes) :
    (roleFile role (derivePair na seed)).length = keyBytes := by
  have hpair := derivePair_matched na seed
  cases role with
  | gs => rw [roleFile, List.length_append, hpair.gsLength, ← hpair.drone, na.length_base]; rfl
  | drone => rw [roleFile, List.length_append, hpair.droneLength, ← hpair.gs, na.length_base]; rfl

/-- What a process does that makes the key from a passphrase if it is missing, or shows it. -/
def Event.Ensures (role : Role) (text : Option Bytes) : Event → Prop
  | .begin _ job => job = .ensure role text ∨ job = .fingerprint role
  | _ => True

/-- At the first start, when any number of processes make the key that is missing: whatever fails
and wherever they die, the file is missing or whole, and the same one; and whoever can read it shows
its fingerprint. -/
theorem run_ensured (na : Sodium) (base : Base) (role : Role) (text : Option Bytes) {files : Files Bytes UInt8}
    (hfiles : files.content base.name = none) {es : List Event} (hes : ∀ e ∈ es, e.Ensures role text) :
    (((keyFile na base).run (Disk.boot base files) es).files.content base.name = none ∨
      ((keyFile na base).run (Disk.boot base files) es).files.content base.name =
        some (roleFile role (derivePair na (seedOr text)))) ∧
      ∀ p role' what, .printed p role' what ∈ (keyFile na base).trace (Disk.boot base files) es →
        what = .missing ∨ what = .unread ∨ what = .failed ∨
          what = .hash (fingerprint na role' (roleFile role (derivePair na (seedOr text)))) := by
  have hwrites : ∀ e ∈ es, e.Writes na (· = roleFile role (derivePair na (seedOr text))) := by
    intro e he
    have hensures := hes e he
    cases e with
    | begin p job =>
        rcases hensures with rfl | rfl
        · rfl
        · trivial
    | _ => trivial
  obtain ⟨hcontent, hof⟩ := run_fresh hfiles hwrites
  refine ⟨hcontent, fun p role' what ho => ?_⟩
  have hlength := length_derived na role (seedOr text)
  have hwhat := hof _ ho
  cases what with
  | missing => exact .inl rfl
  | unread => exact .inr (.inl rfl)
  | failed => exact .inr (.inr (.inl rfl))
  | invalid =>
      obtain ⟨kf, rfl, hshort⟩ := hwhat
      omega
  | hash shown =>
      obtain ⟨kf, rfl, rfl⟩ := hwhat
      rw [List.take_of_length_le hlength.le]
      exact .inr (.inr (.inr rfl))

/-- A library that meets what is documented. -/
def shiftSodium : Sodium where
  argon2i s := s.map fun c => UInt8.ofNat c.toNat
  seedKeypair seed :=
    (((seed ++ List.replicate 32 0).take 32).map (· + 1), (seed ++ List.replicate 32 0).take 32)
  scalarmultBase sk := ((sk ++ List.replicate 32 0).take 32).map (· + 1)
  generichash bs := bs
  length_secret seed := by simp
  length_base sk := by simp
  base_secret seed := by
    rw [List.take_left' (by simp)]

def droneKey : Base := ⟨"drone.key".toList, fun suffix h => absurd (List.cons_eq_cons.mp h).1 (by decide)⟩

/-- Two tunnels start; one of them dies while it writes, the other comes through; then one looks. -/
def twoTunnels : List Event :=
  [.begin 0 (.ensure .drone none), .begin 1 (.ensure .drone none), .call 0 {}, .call 1 {}, .call 0 {}, .call 1 {},
    .call 0 { suffix := "a".toList }, .call 1 { suffix := "b".toList }, .call 0 {}, .call 0 { count := 20 }, .kill 0,
    .call 1 {}, .call 1 { count := 63 }, .call 1 {}, .call 1 {}, .call 1 {}, .begin 2 (.fingerprint .drone),
    .call 2 {}, .call 2 { count := 63 }, .call 2 {}]

theorem run_ensured_two :
    ((keyFile shiftSodium droneKey).run (Disk.boot droneKey Files.empty) twoTunnels).files.content droneKey.name = none ∨
      ((keyFile shiftSodium droneKey).run (Disk.boot droneKey Files.empty) twoTunnels).files.content droneKey.name =
        some (roleFile .drone (derivePair shiftSodium (seedOr none))) :=
  (run_ensured shiftSodium droneKey .drone none rfl (by simp [twoTunnels, Event.Ensures])).1

/-- What looks missing may be there by the time it is written: `wfb_ensure_key` has looked, a key is
uploaded, and the default key takes its place. -/
example : ((keyFile shiftSodium droneKey).run (Disk.boot droneKey Files.empty)
    [.begin 0 (.ensure .drone none), .call 0 {}, .begin 1 (.raw ⟨List.replicate 64 7, rfl⟩), .call 1 {}, .call 1 {},
      .call 1 {}, .call 1 { count := 63 }, .call 1 {}, .call 1 {}, .call 1 {}, .call 0 {},
      .call 0 { suffix := "b".toList }, .call 0 {}, .call 0 { count := 63 }, .call 0 {}, .call 0 {},
      .call 0 {}]).files.content droneKey.name = some (roleFile .drone (derivePair shiftSodium keyDefaultSeed)) := by
  decide +kernel

end Waybeam.Multicall
