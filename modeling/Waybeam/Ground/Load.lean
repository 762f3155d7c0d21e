/-
# `Waybeam.Ground.Load` — the configuration as it is loaded, and the command lines made of it

`Waybeam.Ground.Config` keeps of a tunnel what its stats need.  Here is the whole of it, with the
commands that bring the interfaces up and down, and what becomes of it (`buildArgvRx`):

    wfb_rx [-K key] [-c ip -u port] -i link -p port [-Y stats] extra.. iface..

The stats side of what is loaded is what `Waybeam.Ground.Config` loads (`stats_cfgLoad`).
-/
import Waybeam.Ground.Config

namespace Waybeam.Ground.Cfg

open Text Tokens
open Stats (required optional strings ofType atoi readUdpOut systemCount profileStatsFanin TunnelCfg)

/-- A tunnel, as the configuration has it (`tunnel_init_defaults`). -/
structure Tunnel where
  name : Bytes
  role : Role
  binary : Bytes := []
  linkId : ℤ
  radioPort : ℤ := 0
  ifaces : List Bytes
  /-- `udp_out_ip`, `udp_out_port` -/
  udpOut : Bytes × ℤ := ([], 0)
  statsOut : Bytes := []
  statsTap : Bytes := []
  probe : Bool := false
  probeWindowMs : ℕ := 0
  udpInPort : ℤ := 0
  controlPort : ℤ := 0
  fecK : ℤ := 0
  fecN : ℤ := 0
  bandwidthMhz : ℤ := 0
  mcsIndex : ℤ := -1
  stbc : ℤ := -1
  ldpc : ℤ := -1
  extraArgs : List Bytes := []
  autostart : Bool := true
  keyless : Bool := false
  deriving DecidableEq

structure Config where
  keyFile : Bytes := []
  systemUp : List Bytes := []
  systemDown : List Bytes := []
  tunnels : List Tunnel := []
  deriving DecidableEq

/-! ## `cfg_parse_tunnel` -/

/-- The keys of an rx tunnel. -/
def parseRx (long : ℕ) (obj : List Tok) (t : Tunnel) : Option Tunnel := do
  let udpOut ← optional obj "udp_out" (readUdpOut long)
  let statsOut ← optional obj "stats_out" (jstr 128)
  let statsTap ← optional obj "stats_tap" (jstr 128)
  let probe ← optional obj "probe" jbool
  let window ← optional obj "probe_window_ms" fun v =>
    (jint long v).filter fun lv => 100 ≤ lv ∧ lv ≤ 10000
  some { t with
    udpOut := udpOut.getD ([], 0), statsOut := statsOut.getD [], statsTap := statsTap.getD []
    probe := probe.getD false, probeWindowMs := (window.getD 500).toNat }

/-- The `fec` of a tx tunnel. -/
def parseFec (long : ℕ) (obj : List Tok) (t : Tunnel) : Option Tunnel :=
  match ofType .obj (jfind "fec".toList obj) with
  | none => some t
  | some fec => do
      let k ← optional fec "k" (jint long)
      let n ← optional fec "n" (jint long)
      some { t with fecK := (k.map i32).getD t.fecK, fecN := (n.map i32).getD t.fecN }

/-- The `radio` of a tx tunnel. -/
def parseRadio (long : ℕ) (obj : List Tok) (t : Tunnel) : Option Tunnel :=
  match ofType .obj (jfind "radio".toList obj) with
  | none => some t
  | some radio => do
      let bw ← optional radio "bandwidth_mhz" (jint long)
      let mcs ← optional radio "mcs_index" (jint long)
      let stbc ← optional radio "stbc" (jint long)
      let ldpc ← optional radio "ldpc" (jint long)
      some { t with
        bandwidthMhz := (bw.map i32).getD t.bandwidthMhz, mcsIndex := (mcs.map i32).getD t.mcsIndex
        stbc := (stbc.map i32).getD t.stbc, ldpc := (ldpc.map i32).getD t.ldpc }

/-- The keys of a tx tunnel. -/
def parseTx (long : ℕ) (obj : List Tok) (t : Tunnel) : Option Tunnel := do
  let udpIn ← required obj "udp_in_port" (jint long)
  let control ← optional obj "control_port" (jint long)
  let t ← parseFec long obj { t with
    udpInPort := i32 udpIn, controlPort := (control.map i32).getD t.controlPort }
  parseRadio long obj t

/-- `cfg_parse_tunnel` -/
def cfgParseTunnel (long : ℕ) (obj : List Tok) : Option Tunnel := do
  let name ← required obj "name" (jstr 32)
  let role ← required obj "role" (jstr 4)
  if role ≠ "rx".toList ∧ role ≠ "tx".toList then none
  else
    let linkId ← required obj "link_id" (jint long)
    let radioPort ← optional obj "radio_port" (jint long)
    let ifaces ← required obj "interfaces" (strings 1 4 16)
    let extraArgs ← match ofType .arr (jfind "extra_args".toList obj) with
      | some v => strings 0 16 128 v
      | none => some []
    let autostart ← optional obj "autostart" jbool
    let keyless ← optional obj "keyless" jbool
    let binary ← optional obj "binary" (jstr 256)
    let t : Tunnel := {
      name, role := if role = "rx".toList then .rx else .tx, linkId := i32 linkId
      radioPort := i32 (radioPort.getD 0), ifaces, extraArgs, autostart := autostart.getD true
      keyless := keyless.getD false, binary := binary.getD [] }
    if role = "rx".toList then parseRx long obj t else parseTx long obj t

/-! ## `cfg_expand_profile` -/

/-- The commands that bring an interface up; each fits its 256 bytes. -/
def bringUp (channel txpower : ℤ) (ht ifc : Bytes) : List Bytes :=
  ["ip link set ".toList ++ ifc ++ " down".toList,
    "iw dev ".toList ++ ifc ++ " set monitor otherbss".toList, "sleep 0.5".toList,
    "ip link set ".toList ++ ifc ++ " up".toList, "sleep 0.5".toList,
    "iw dev ".toList ++ ifc ++ " set channel ".toList ++ signed channel ++ ' ' :: ht] ++
  if 0 < txpower then
    ["sleep 0.5".toList, "iw dev ".toList ++ ifc ++ " set txpower fixed ".toList ++ signed txpower]
  else []

/-- `profile_set_binary` -/
def profileBinary (binDir : Bytes) (name : String) : Bytes :=
  if binDir = [] then [] else (binDir ++ '/' :: name.toList).take 255

/-- `cfg_expand_profile` -/
def cfgExpandProfile (long : ℕ) (p : List Tok) (c : Config) : Option Config := do
  let ifaces ← required p "ifaces" (strings 1 4 16)
  let uplink := (← optional p "uplink_iface" (jstr 16)).getD (ifaces.getLastD [])
  if uplink ∉ ifaces then none
  else
    let channel ← required p "channel" (jint long)
    if channel < 1 ∨ 200 < channel then none
    else
      let ht := (← optional p "ht" (jstr 8)).getD "HT20".toList
      if ht ∉ ["HT20".toList, "HT40+".toList, "HT40-".toList] then none
      else
        let txpower := (← optional p "txpower_mbm" (jint long)).getD 0
        if txpower < 0 ∨ 4000 < txpower then none
        else
          let binDir := (← optional p "wfb_bin_dir" (jstr 256)).getD []
          let up := ifaces.flatMap (bringUp channel txpower ht) ++ c.systemUp
          let down := c.systemDown ++ ifaces.map fun ifc => "ip link set ".toList ++ ifc ++ " down".toList
          if 32 < up.length ∨ 32 < down.length then none
          else
            let args := ["-x".toList, "-l".toList, "100".toList]
            some { c with
              systemUp := up
              systemDown := down
              tunnels := [
                { name := "video".toList, role := .rx, binary := profileBinary binDir "wfb_rx"
                  linkId := 207, ifaces, statsOut := profileStatsFanin, probeWindowMs := 500
                  extraArgs := args },
                { name := "probe".toList, role := .rx, binary := profileBinary binDir "wfb_rx"
                  linkId := 50, radioPort := 50, ifaces, udpOut := ("127.0.0.1".toList, 5751)
                  statsOut := profileStatsFanin, probe := true, probeWindowMs := 500
                  extraArgs := args },
                { name := "uplink".toList, role := .tx, binary := profileBinary binDir "wfb_tx"
                  linkId := 208, ifaces := [uplink], udpInPort := 6600, controlPort := 8000
                  fecK := 1, fecN := 2, extraArgs := ["-T".toList, "1".toList] }] }

/-! ## `cfg_load` -/

/-- The commands of `system` under a key; what is no string is an empty one. -/
def systemCommands (doc : List Tok) (key : String) : Option (List Bytes) :=
  match (ofType .obj (jfind "system".toList doc)).bind fun sys => ofType .arr (jfind key.toList sys) with
  | some (t :: ts) =>
      if 32 < t.size then none else some ((elements t.size ts).map fun v => (jstr 256 v).getD [])
  | _ => some []

/-- A probe tunnel whose payload would go to the video port. -/
def Tunnel.floodsVideo (t : Tunnel) : Bool :=
  t.role = .rx && t.probe && (t.udpOut.1 = [] || t.udpOut.2 = 5600)

/-- `cfg_load`, from the text of the file on; the blocks `http`, `venc_cmd`, `recovery_cmd` and
`telemetry` refuse nothing and are left out. -/
def cfgLoad (long : ℕ) (buf : Bytes) : Option Config := do
  if buf = [] ∨ 256 * 1024 < buf.length then none
  else
    let doc ← ofType .obj (jsonParse 512 buf)
    let systemUp ← systemCommands doc "up"
    let systemDown ← systemCommands doc "down"
    let c : Config := {
      keyFile := ((jfind "key_file".toList doc).bind (jstr 256)).getD [], systemUp, systemDown }
    let c ← match jfind "profile".toList doc, jfind "tunnels".toList doc with
      | some _, some _ => none
      | some p, none => (ofType .obj (some p)).bind fun p => cfgExpandProfile long p c
      | none, tarr =>
          match ofType .arr tarr with
          | some (t :: ts) =>
              if 1 ≤ t.size ∧ t.size ≤ 8 then
                ((elements t.size ts).mapM (cfgParseTunnel long)).map fun tunnels => { c with tunnels }
              else none
          | _ => none
    if c.tunnels.any Tunnel.floodsVideo then none else some c

/-! ## Command lines -/

/-- `ArgvBuilder`: the arguments, and how much of the buffer they take. -/
structure ArgvBuilder where
  argv : List Bytes := []
  pos : ℕ := 0
  deriving DecidableEq

/-- `ab_push`: 63 arguments in a buffer of 1536 bytes. -/
def ArgvBuilder.push (ab : ArgvBuilder) (s : Bytes) : Option ArgvBuilder :=
  if 63 ≤ ab.argv.length ∨ 1536 ≤ ab.pos ∨ 1536 - ab.pos ≤ s.length then none
  else some ⟨ab.argv ++ [s], ab.pos + s.length + 1⟩

/-- An option with its argument, where there is one. -/
def optArg (opt : String) (arg : Bytes) : List Bytes := if arg = [] then [] else [opt.toList, arg]

/-- The options in front of the extra arguments; `local` is where the supervisor listens for the
stats of the tunnel. -/
def Tunnel.rxOptions (t : Tunnel) (keyFile statsLocal : Bytes) : List Bytes :=
  (if t.keyless then [] else optArg "-K" keyFile) ++
    (if t.udpOut.1 = [] then [] else ["-c".toList, t.udpOut.1, "-u".toList, signed t.udpOut.2]) ++
    ["-i".toList, signed t.linkId, "-p".toList, signed t.radioPort] ++
    optArg "-Y" (if statsLocal ≠ [] then statsLocal else t.statsOut)

/-- `build_argv_rx`; `none` where not everything fits. -/
def buildArgvRx (t : Tunnel) (keyFile statsLocal : Bytes) : Option (List Bytes) :=
  (((if t.binary = [] then "wfb_rx".toList else t.binary) ::
    (t.rxOptions keyFile statsLocal ++ t.extraArgs ++ t.ifaces)).foldlM ArgvBuilder.push {}).map (·.argv)

/-! ## The stats side -/

/-- What `Waybeam.Ground.Config` keeps of a tunnel. -/
def Tunnel.stats (t : Tunnel) : TunnelCfg where
  role := t.role
  ifaces := t.ifaces
  radioPort := t.radioPort
  udpOut := t.udpOut
  statsOut := t.statsOut
  statsTap := t.statsTap
  probe := t.probe
  probeWindowMs := t.probeWindowMs

section

variable {long : ℕ} {obj : List Tok} {t : Tunnel}

theorem map_bind_eq {α β γ : Type} {a : Option α} {f : α → Option β} {g : β → γ} {k : α → Option γ}
    (h : ∀ x, (f x).map g = k x) : (a.bind f).map g = a.bind k := by
  cases a with
  | none => rfl
  | some x => exact h x

theorem stats_parseRx (h : t.role = .rx) :
    (parseRx long obj t).map Tunnel.stats = Stats.parseRx long obj t.ifaces t.radioPort := by
  unfold parseRx Stats.parseRx
  simp only [Option.bind_eq_bind, Option.map_bind, Function.comp_def, Option.map_some, Tunnel.stats, h]

theorem stats_parseTx (h : t.stats =
    { role := .tx, ifaces := t.ifaces, radioPort := t.radioPort, probeWindowMs := 0 }) :
    (parseTx long obj t).map Tunnel.stats = Stats.parseTx long obj t.ifaces t.radioPort := by
  unfold parseTx Stats.parseTx parseFec parseRadio
  rw [← h]
  refine map_bind_eq fun udpIn => map_bind_eq fun control => ?_
  cases ofType .obj (jfind "fec".toList obj) <;> cases ofType .obj (jfind "radio".toList obj) <;>
    simp only [List.mapM_cons, List.mapM_nil, Option.bind_eq_bind, Option.map_bind, Function.comp_def,
      Option.map_some, Option.pure_def, Option.bind_some, Option.bind_assoc, Tunnel.stats]

theorem stats_cfgParseTunnel (long : ℕ) (obj : List Tok) :
    (cfgParseTunnel long obj).map Tunnel.stats = Stats.cfgParseTunnel long obj := by
  unfold cfgParseTunnel Stats.cfgParseTunnel
  refine map_bind_eq fun name => map_bind_eq fun role => ?_
  split
  · rfl
  · refine map_bind_eq fun linkId => map_bind_eq fun radioPort => map_bind_eq fun ifaces => ?_
    cases ofType .arr (jfind "extra_args".toList obj) <;>
      refine map_bind_eq fun extraArgs => map_bind_eq fun autostart => map_bind_eq fun keyless =>
        map_bind_eq fun binary => ?_
    all_goals
      split
      · exact stats_parseRx rfl
      · exact stats_parseTx rfl

theorem length_elements (k : ℕ) (ts : List Tok) : (elements k ts).length = k := by
  induction k generalizing ts with
  | zero => rfl
  | succ k ih => rw [elements, List.length_cons, ih]

theorem length_systemCommands (doc : List Tok) (key : String) :
    (systemCommands doc key).map List.length = systemCount doc key := by
  unfold systemCommands systemCount
  generalize (ofType .obj (jfind "system".toList doc)).bind _ = v
  match v with
  | none => rfl
  | some [] => rfl
  | some (t :: ts) =>
    simp only
    split
    · rfl
    · rw [Option.map_some, List.length_map, length_elements]

/-- The commands that bring the interfaces up, by their number. -/
theorem length_bringUp (channel txpower : ℤ) (ht : Bytes) (ifaces : List Bytes) :
    (ifaces.flatMap (bringUp channel txpower ht)).length =
      ifaces.length * if 0 < txpower then 8 else 6 := by
  induction ifaces with
  | nil => simp
  | cons ifc ifaces ih =>
    rw [List.flatMap_cons, List.length_append, ih, List.length_cons, Nat.succ_mul, Nat.add_comm]
    congr 1
    unfold bringUp
    split <;> rfl

theorem stats_cfgExpandProfile (long : ℕ) (p : List Tok) (c : Config) :
    (cfgExpandProfile long p c).map (·.tunnels.map Tunnel.stats) =
      Stats.cfgExpandProfile long p c.systemUp.length c.systemDown.length := by
  unfold cfgExpandProfile Stats.cfgExpandProfile
  refine map_bind_eq fun ifaces => map_bind_eq fun uplink => ?_
  dsimp only
  split
  · rfl
  · refine map_bind_eq fun channel => ?_
    split
    · rfl
    · refine map_bind_eq fun ht => ?_
      split
      · rfl
      · refine map_bind_eq fun txpower => ?_
        split
        · rfl
        · refine map_bind_eq fun binDir => ?_
          simp only [List.length_append, length_bringUp, List.length_map]
          split <;> split <;> rfl

theorem map_mapM {α β γ : Type} (f : α → Option β) (g : β → γ) (xs : List α) :
    (xs.mapM f).map (List.map g) = xs.mapM fun x => (f x).map g := by
  induction xs with
  | nil => rfl
  | cons x xs ih =>
    rw [List.mapM_cons, List.mapM_cons, ← ih]
    cases f x with
    | none => rfl
    | some y => cases xs.mapM f <;> rfl

theorem stats_any (tunnels : List Tunnel) :
    (tunnels.map Tunnel.stats).any TunnelCfg.floodsVideo = tunnels.any Tunnel.floodsVideo := by
  rw [List.any_map]; rfl

/-- What the stats need of a configuration is the stats side of what is loaded. -/
theorem stats_cfgLoad (long : ℕ) (buf : Bytes) :
    (cfgLoad long buf).map (·.tunnels.map Tunnel.stats) = Stats.cfgLoad long buf := by
  have hend : ∀ c : Option Config,
      (c.bind fun c => if c.tunnels.any Tunnel.floodsVideo then none else some c).map
          (·.tunnels.map Tunnel.stats) =
        (c.map (·.tunnels.map Tunnel.stats)).bind fun ts =>
          if ts.any TunnelCfg.floodsVideo then none else some ts := by
    intro c
    cases c with
    | none => rfl
    | some c =>
      simp only [Option.bind_some, Option.map_some, stats_any]
      split <;> rfl
  unfold cfgLoad Stats.cfgLoad
  split
  · rfl
  · refine map_bind_eq fun doc => ?_
    simp only [← length_systemCommands, Option.bind_eq_bind]
    cases systemCommands doc "up" with
    | none => rfl
    | some up =>
      cases systemCommands doc "down" with
      | none => rfl
      | some down =>
        simp only [Option.map_some, Option.bind_some]
        cases jfind "profile".toList doc with
        | some p =>
          cases jfind "tunnels".toList doc with
          | some ts => rfl
          | none =>
            refine (hend _).trans (congrArg (Option.bind · _) ?_)
            exact map_bind_eq fun p => stats_cfgExpandProfile long p _
        | none =>
          simp only
          rcases ofType .arr (jfind "tunnels".toList doc) with - | - | ⟨t, ts⟩
          · rfl
          · rfl
          · simp only
            split
            · refine (hend _).trans (congrArg (Option.bind · _) ?_)
              rw [Option.map_map, ← funext (stats_cfgParseTunnel long), ← map_mapM]
              rfl
            · rfl

end

end Waybeam.Ground.Cfg
