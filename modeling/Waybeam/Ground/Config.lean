/-
# `Waybeam.Ground.Config` — what the supervisor reads of its configuration

    "tunnels":[{..}]   one by one: name, role, interfaces and where its output goes
    "profile":{..}     the video, probe and uplink tunnels, from a few facts

One of the two has to be there.  A value of the wrong kind refuses the whole file; so does a
probe tunnel whose payload would go to the video port.  Of a tunnel only what its stats need
is kept, the other keys are checked.
-/
import Waybeam.Ground.Stats
import Waybeam.Tokens

namespace Waybeam.Ground.Stats

open Text Tokens

/-- The stats side of a tunnel as the configuration has it. -/
structure TunnelCfg where
  role : Role
  ifaces : List Bytes
  radioPort : ℤ := 0
  /-- address and port of `udp_out` -/
  udpOut : Bytes × ℤ := ([], 0)
  statsOut : Bytes := []
  statsTap : Bytes := []
  probe : Bool := false
  probeWindowMs : ℕ := 500
  deriving DecidableEq

/-! ## Fields -/

/-- A key that has to be there. -/
def required {α : Type} (obj : List Tok) (key : String) (read : List Tok → Option α) : Option α :=
  (jfind key.toList obj).bind read

/-- A key that may be there, and then has to be of its kind. -/
def optional {α : Type} (obj : List Tok) (key : String) (read : List Tok → Option α) :
    Option (Option α) :=
  match jfind key.toList obj with
  | some v => (read v).map some
  | none => some none

/-- A list of strings, not too many of them. -/
def strings (least most cap : ℕ) (v : List Tok) : Option (List Bytes) :=
  match v with
  | t :: ts =>
      if t.type = .arr ∧ least ≤ t.size ∧ t.size ≤ most then (elements t.size ts).mapM (jstr cap)
      else none
  | [] => none

theorem mem_mapM {α β : Type} {f : α → Option β} {xs : List α} {ys : List β}
    (h : xs.mapM f = some ys) : ∀ y ∈ ys, ∃ x ∈ xs, f x = some y := by
  induction xs generalizing ys with
  | nil =>
      cases h
      intro y hy
      cases hy
  | cons x xs ih =>
      rw [List.mapM_cons] at h
      obtain ⟨y₀, hy₀, h⟩ := Option.bind_eq_some_iff.mp h
      obtain ⟨ys', hys, h⟩ := Option.bind_eq_some_iff.mp h
      cases h
      intro y hy
      rcases List.mem_cons.mp hy with rfl | hy
      · exact ⟨x, List.mem_cons_self, hy₀⟩
      · obtain ⟨x', hx', hfx⟩ := ih hys y hy
        exact ⟨x', List.mem_cons_of_mem _ hx', hfx⟩

/-- A value of this kind, or `none`. -/
def ofType (type : TokType) (v : Option (List Tok)) : Option (List Tok) :=
  v.filter fun v => v.head?.any (·.type = type)

/-- `atoi` -/
def atoi (long : ℕ) (s : Bytes) : ℤ := i32 ((strtol long s).getD 0)

/-- Up to the last of such characters, and what follows it. -/
def splitLast (c : Char) (s : Bytes) : Option (Bytes × Bytes) :=
  if c ∈ s then
    let after := (s.reverse.takeWhile (· ≠ c)).reverse
    some (s.take (s.length - after.length - 1), after)
  else none

/-- `inet_pton` of an IPv4 address: four numbers below 256, without leading zeros. -/
def inetPton (s : Bytes) : Bool :=
  let octets := s.splitOn '.'
  octets.length = 4 && octets.all fun o => (List.range 256).any fun n => o = decimal n

/-- `parse_host_port` succeeds. -/
def parseHostPort (long : ℕ) (s : Bytes) : Bool :=
  match splitLast ':' s with
  | none => false
  | some (host, port) =>
      host ≠ [] && host.length < 64 && 0 < atoi long port && atoi long port ≤ 65535 && inetPton host

/-! ## `cfg_parse_tunnel` -/

/-- `udp_out`: an address, a colon and a port. -/
def readUdpOut (long : ℕ) (v : List Tok) : Option (Bytes × ℤ) := do
  let tmp ← jstr 128 v
  if ':' ∉ tmp then none
  else
    let port := atoi long ((tmp.dropWhile (· ≠ ':')).drop 1)
    if port ≤ 0 ∨ 65535 < port then none else some (tmp.takeWhile (· ≠ ':'), port)

/-- The keys of an rx tunnel. -/
def parseRx (long : ℕ) (t : List Tok) (ifaces : List Bytes) (radioPort : ℤ) : Option TunnelCfg := do
  let udpOut ← optional t "udp_out" (readUdpOut long)
  let statsOut ← optional t "stats_out" (jstr 128)
  let statsTap ← optional t "stats_tap" (jstr 128)
  let probe ← optional t "probe" jbool
  let window ← optional t "probe_window_ms" fun v =>
    (jint long v).filter fun lv => 100 ≤ lv ∧ lv ≤ 10000
  some {
    role := .rx, ifaces, radioPort, udpOut := udpOut.getD ([], 0), statsOut := statsOut.getD []
    statsTap := statsTap.getD [], probe := probe.getD false
    probeWindowMs := (window.getD 500).toNat }

/-- The keys of a tx tunnel; only their kind matters here. -/
def parseTx (long : ℕ) (t : List Tok) (ifaces : List Bytes) (radioPort : ℤ) : Option TunnelCfg := do
  let _ ← required t "udp_in_port" (jint long)
  let _ ← optional t "control_port" (jint long)
  let _ ← match ofType .obj (jfind "fec".toList t) with
    | some fec => ["k", "n"].mapM (optional fec · (jint long))
    | none => some []
  let _ ← match ofType .obj (jfind "radio".toList t) with
    | some radio =>
        ["bandwidth_mhz", "mcs_index", "stbc", "ldpc"].mapM (optional radio · (jint long))
    | none => some []
  some { role := .tx, ifaces, radioPort, probeWindowMs := 0 }

/-- `cfg_parse_tunnel` -/
def cfgParseTunnel (long : ℕ) (t : List Tok) : Option TunnelCfg := do
  let _ ← required t "name" (jstr 32)
  let role ← required t "role" (jstr 4)
  if role ≠ "rx".toList ∧ role ≠ "tx".toList then none
  else
    let _ ← required t "link_id" (jint long)
    let radioPort ← optional t "radio_port" (jint long)
    let ifaces ← required t "interfaces" (strings 1 4 16)
    let _ ← match ofType .arr (jfind "extra_args".toList t) with
      | some v => strings 0 16 128 v
      | none => some []
    let _ ← optional t "autostart" jbool
    let _ ← optional t "keyless" jbool
    let _ ← optional t "binary" (jstr 256)
    let port := i32 (radioPort.getD 0)
    if role = "rx".toList then parseRx long t ifaces port else parseTx long t ifaces port

/-! ## `cfg_expand_profile` -/

/-- `PROFILE_STATS_FANIN` -/
def profileStatsFanin : Bytes := "127.0.0.1:6600".toList

/-- `cfg_expand_profile`, next to so many commands of the configuration's own. -/
def cfgExpandProfile (long : ℕ) (p : List Tok) (systemUp systemDown : ℕ) :
    Option (List TunnelCfg) := do
  let ifaces ← required p "ifaces" (strings 1 4 16)
  let uplink := (← optional p "uplink_iface" (jstr 16)).getD (ifaces.getLastD [])
  if uplink ∉ ifaces then none
  else
    let channel ← required p "channel" (jint long)
    if channel < 1 ∨ 200 < channel then none
    else
      let ht := (← optional p "ht" (jstr 8)).getD "HT20".toList
      if ht ∉ ["HT20".toList, "HT40+".toList, "HT40-".toList] then none
      else
        let txpower := (← optional p "txpower_mbm" (jint long)).getD 0
        if txpower < 0 ∨ 4000 < txpower then none
        else
          let _ ← optional p "wfb_bin_dir" (jstr 256)
          -- six commands bring an interface up, two more set its power; one takes it down
          let each := if 0 < txpower then 8 else 6
          if 32 < ifaces.length * each + systemUp ∨ 32 < systemDown + ifaces.length then none
          else
            some [
              { role := .rx, ifaces, statsOut := profileStatsFanin },
              { role := .rx, ifaces, radioPort := 50, udpOut := ("127.0.0.1".toList, 5751)
                statsOut := profileStatsFanin, probe := true },
              { role := .tx, ifaces := [uplink], probeWindowMs := 0 }]

/-! ## `cfg_load` -/

/-- How many commands `system` has under a key. -/
def systemCount (doc : List Tok) (key : String) : Option ℕ :=
  match (ofType .obj (jfind "system".toList doc)).bind fun sys => ofType .arr (jfind key.toList sys) with
  | some (t :: _) => if 32 < t.size then none else some t.size
  | _ => some 0

/-- A probe tunnel whose payload would go to the video port. -/
def TunnelCfg.floodsVideo (t : TunnelCfg) : Bool :=
  t.role = .rx && t.probe && (t.udpOut.1 = [] || t.udpOut.2 = 5600)

/-- `cfg_load`, from the text of the file on. -/
def cfgLoad (long : ℕ) (buf : Bytes) : Option (List TunnelCfg) := do
  if buf = [] ∨ 256 * 1024 < buf.length then none
  else
    let doc ← ofType .obj (jsonParse 512 buf)
    let up ← systemCount doc "up"
    let down ← systemCount doc "down"
    let tunnels ← match jfind "profile".toList doc, jfind "tunnels".toList doc with
      | some _, some _ => none
      | some p, none => (ofType .obj (some p)).bind fun p => cfgExpandProfile long p up down
      | none, tarr =>
          match ofType .arr tarr with
          | some (t :: ts) =>
              if 1 ≤ t.size ∧ t.size ≤ 8 then (elements t.size ts).mapM (cfgParseTunnel long) else none
          | _ => none
    if tunnels.any TunnelCfg.floodsVideo then none else some tunnels

/-! ## What is accepted -/

section

variable {long : ℕ}

/-- A tx tunnel has no stats. -/
theorem parseTx_inv {v : List Tok} {ifaces : List Bytes} {port : ℤ} {t : TunnelCfg}
    (h : parseTx long v ifaces port = some t) :
    t = { role := .tx, ifaces, radioPort := port, probeWindowMs := 0 } := by
  simp only [parseTx, bind, Option.bind_eq_some_iff] at h
  obtain ⟨_, -, _, -, h⟩ := h
  -- the fec object, then the radio object, may be missing
  split at h <;>
    obtain ⟨_, -, h⟩ := Option.bind_eq_some_iff.mp h <;>
    split at h <;>
    obtain ⟨_, -, h⟩ := Option.bind_eq_some_iff.mp h <;>
    cases h <;>
    rfl

/-- A tunnel is read with its interfaces, by its role. -/
theorem cfgParseTunnel_inv {v : List Tok} {t : TunnelCfg} (h : cfgParseTunnel long v = some t) :
    ∃ ifaces port, required v "interfaces" (strings 1 4 16) = some ifaces ∧
      (parseRx long v ifaces port = some t ∨ parseTx long v ifaces port = some t) := by
  unfold cfgParseTunnel at h
  simp only [bind, Option.bind_eq_some_iff, Option.ite_none_left_eq_some] at h
  obtain ⟨_, -, role, -, -, _, -, radioPort, -, ifaces, hifaces, h⟩ := h
  have hrole : (if role = "rx".toList then parseRx long v ifaces (i32 (radioPort.getD 0))
      else parseTx long v ifaces (i32 (radioPort.getD 0))) = some t := by
    split at h <;>
      · simp only [Option.bind_eq_some_iff] at h
        obtain ⟨_, -, _, -, _, -, _, -, h⟩ := h
        exact h
  refine ⟨ifaces, i32 (radioPort.getD 0), hifaces, ?_⟩
  split at hrole
  · exact .inl hrole
  · exact .inr hrole

/-- The tunnels come from a profile or one by one, and no probe is among them that floods the video. -/
theorem cfgLoad_inv {buf : Bytes} {cfg : List TunnelCfg} (h : cfgLoad long buf = some cfg) :
    cfg.any TunnelCfg.floodsVideo = false ∧
      ((∃ p up down, cfgExpandProfile long p up down = some cfg) ∨
        ∃ vs : List (List Tok), vs.mapM (cfgParseTunnel long) = some cfg) := by
  unfold cfgLoad at h
  simp only [bind, Option.bind_eq_some_iff, Option.ite_none_left_eq_some] at h
  obtain ⟨-, doc, -, up, -, down, -, h⟩ := h
  have hend : ∀ {o : Option (List TunnelCfg)},
      (o.bind fun ts => if ts.any TunnelCfg.floodsVideo = true then none else some ts) = some cfg →
      cfg.any TunnelCfg.floodsVideo = false ∧ o = some cfg := by
    intro o h
    obtain ⟨ts, hts, h⟩ := Option.bind_eq_some_iff.mp h
    obtain ⟨hflood, h⟩ := Option.ite_none_left_eq_some.mp h
    cases h
    exact ⟨Bool.eq_false_of_not_eq_true hflood, hts⟩
  split at h
  · cases h
  · obtain ⟨hflood, hts⟩ := hend h
    obtain ⟨p, -, hp⟩ := Option.bind_eq_some_iff.mp hts
    exact ⟨hflood, .inl ⟨p, up, down, hp⟩⟩
  · split at h
    · split at h
      · obtain ⟨hflood, hts⟩ := hend h
        exact ⟨hflood, .inr ⟨_, hts⟩⟩
      · cases h
    · cases h

end

/-! ## From the configuration to the sockets -/

/-- A tunnel before its stats socket is open. -/
def TunnelCfg.listener (t : TunnelCfg) : Listener where
  role := t.role
  probe := t.probe
  producer := { radioPort := t.radioPort, probeWindowMs := t.probeWindowMs, statsFwdActive := false }
  stRssiBest := Probe.intMin

/-- `stats_listener_open`: the copies go out where the address can be read. -/
def TunnelCfg.statsListenerOpen (long : ℕ) (t : TunnelCfg) (l : Listener) : Listener :=
  { l with
    producer := { l.producer with statsFwdActive := parseHostPort long t.statsOut }
    statsTapActive := parseHostPort long t.statsTap }

end Waybeam.Ground.Stats
