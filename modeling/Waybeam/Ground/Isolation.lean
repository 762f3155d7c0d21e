/-
# `Waybeam.Ground.Isolation` — where the payload of a probe goes

`wfb_rx` sends what it decodes to port 5600, where the video is played, unless `-u` names another;
the last `-u` counts.  A configuration with a probe tunnel that would leave it at that is refused.

    wfb_rx .. -c ip -u port ..  extra.. iface..

The check looks at `udp_out`.  The extra arguments and the names of the interfaces stand behind it,
and `wfb_rx` reads options there as well.
-/
import Waybeam.Ground.Overlay

namespace Waybeam.Ground.Cfg

open Text Tokens
open Stats (required optional ofType atoi readUdpOut TunnelCfg)

/-! ## How `wfb_rx` reads its arguments -/

/-- Of `"K:fa:c:u:U:p:l:i:e:R:s:xY:"` the ones with a colon. -/
def takesArg (c : Char) : Bool := c ∈ "KacuUplieRsY".toList

/-- A word that begins with `-`: its options, and one that waits for an argument; `none` where there
is an option that `wfb_rx` does not have. -/
def cluster : Bytes → Option (List (Char × Bytes) × Option Char)
  | [] => some ([], none)
  | c :: cs =>
      if takesArg c then if cs = [] then some ([], some c) else some ([(c, cs)], none)
      else if c = 'f' ∨ c = 'x' then (cluster cs).map fun r => ((c, []) :: r.1, r.2)
      else none

/-- `getopt`: the options in order.  Some implementations look for more options behind a word that is
none (`permute`), others stop there. -/
def getopt (permute : Bool) : Option Char → List Bytes → Option (List (Char × Bytes))
  | some c, arg :: args => (getopt permute none args).map ((c, arg) :: ·)
  | some _, [] => none
  | none, [] => some []
  | none, word :: args =>
      if word = "--".toList then some []
      else
        match word with
        | '-' :: c :: cs =>
            (cluster (c :: cs)).bind fun r => (getopt permute r.2 args).map (r.1 ++ ·)
        | _ => if permute then getopt permute none args else some []

/-- The argument of the last `-u`. -/
def lastPort (opts : List (Char × Bytes)) : Option Bytes :=
  ((opts.filter fun o => o.1 = 'u').getLast?).map (·.2)

/-- The port that decoded payloads are sent to; `none` where `wfb_rx` refuses its arguments. -/
def forwardPort (port : Bytes → ℤ) (permute : Bool) (argv : List Bytes) : Option ℤ :=
  (getopt permute none argv.tail).map fun opts => ((lastPort opts).map port).getD 5600

/-! ### The options in front -/

/-- The options that the supervisor puts in front. -/
def Tunnel.rxPairs (t : Tunnel) (keyFile statsLocal : Bytes) : List (Char × Bytes) :=
  let stats := if statsLocal ≠ [] then statsLocal else t.statsOut
  (if t.keyless ∨ keyFile = [] then [] else [('K', keyFile)]) ++
    (if t.udpOut.1 = [] then [] else [('c', t.udpOut.1), ('u', signed t.udpOut.2)]) ++
    [('i', signed t.linkId), ('p', signed t.radioPort)] ++ (if stats = [] then [] else [('Y', stats)])

/-- Options with an argument of their own, one word each. -/
theorem getopt_pairs (permute : Bool) {ps : List (Char × Bytes)} (h : ∀ p ∈ ps, takesArg p.1 = true)
    (hdash : ∀ p ∈ ps, p.1 ≠ '-') (args : List Bytes) :
    getopt permute none (ps.flatMap (fun p => [['-', p.1], p.2]) ++ args) =
      (getopt permute none args).map (ps ++ ·) := by
  induction ps with
  | nil =>
    rw [List.flatMap_nil, List.nil_append]
    cases getopt permute none args <;> rfl
  | cons p ps ih =>
    obtain ⟨hp, hps⟩ := List.forall_mem_cons.mp h
    obtain ⟨hd, hds⟩ := List.forall_mem_cons.mp hdash
    have hword : ['-', p.1] ≠ "--".toList := by
      intro heq
      exact hd (List.cons.inj (List.cons.inj heq).2).1
    have hcluster : cluster [p.1] = some ([], some p.1) := by
      rw [cluster, if_pos hp, if_pos rfl]
    rw [List.flatMap_cons]
    show getopt permute none (['-', p.1] :: p.2 :: (ps.flatMap _ ++ args)) = _
    rw [getopt, if_neg hword, hcluster, Option.bind_some, getopt, ih hps hds, Option.map_map,
      Option.map_map]
    rfl

theorem rxOptions_eq (t : Tunnel) (keyFile statsLocal : Bytes) :
    t.rxOptions keyFile statsLocal =
      (t.rxPairs keyFile statsLocal).flatMap fun p => [['-', p.1], p.2] := by
  unfold Tunnel.rxOptions Tunnel.rxPairs optArg
  generalize (if statsLocal ≠ [] then statsLocal else t.statsOut) = stats
  by_cases hkeyless : t.keyless = true <;> by_cases hkey : keyFile = [] <;>
    by_cases hudp : t.udpOut.1 = [] <;> by_cases hstats : stats = [] <;>
    simp [hkeyless, hkey, hudp, hstats]

theorem takesArg_rxPairs (t : Tunnel) (keyFile statsLocal : Bytes) :
    ∀ p ∈ t.rxPairs keyFile statsLocal, takesArg p.1 = true ∧ p.1 ≠ '-' := by
  have hopts : ∀ c ∈ "KcuipY".toList, takesArg c = true ∧ c ≠ '-' := by decide
  have hmem : ∀ p ∈ t.rxPairs keyFile statsLocal, p.1 ∈ "KcuipY".toList := by
    simp only [Tunnel.rxPairs, List.forall_mem_append]
    refine ⟨⟨⟨?_, ?_⟩, ?_⟩, ?_⟩
    · split <;> simp
    · split <;> simp
    · simp
    · split <;> simp
  intro p hp
  exact hopts p.1 (hmem p hp)

theorem lastPort_append (opts opts' : List (Char × Bytes)) :
    lastPort (opts ++ opts') = (lastPort opts').or (lastPort opts) := by
  unfold lastPort
  rw [List.filter_append, List.getLast?_append]
  cases (opts'.filter fun o => decide (o.1 = 'u')).getLast? <;> rfl

/-- Where there is an address, the options in front end at its port. -/
theorem lastPort_rxPairs {t : Tunnel} (h : t.udpOut.1 ≠ []) (keyFile statsLocal : Bytes) :
    lastPort (t.rxPairs keyFile statsLocal) = some (signed t.udpOut.2) := by
  have hkey : ∀ b : Prop, ∀ [Decidable b],
      lastPort (if b then [] else [('K', keyFile)]) = none := by
    intro b _
    split <;> rfl
  have hstats : ∀ stats : Bytes, lastPort (if stats = [] then [] else [('Y', stats)]) = none := by
    intro stats
    split <;> rfl
  unfold Tunnel.rxPairs
  rw [lastPort_append, lastPort_append, lastPort_append, hstats, if_neg h]
  rfl

theorem getopt_argv (permute : Bool) (t : Tunnel) (keyFile statsLocal : Bytes) (args : List Bytes) :
    getopt permute none (t.rxOptions keyFile statsLocal ++ args) =
      (getopt permute none args).map (t.rxPairs keyFile statsLocal ++ ·) := by
  have hpairs := takesArg_rxPairs t keyFile statsLocal
  rw [rxOptions_eq]
  exact getopt_pairs permute (fun p hp => (hpairs p hp).1) (fun p hp => (hpairs p hp).2) args

/-! ### The command line -/

theorem argv_of_push {ab ab' : ArgvBuilder} {s : Bytes} (h : ab.push s = some ab') :
    ab'.argv = ab.argv ++ [s] := by
  unfold ArgvBuilder.push at h
  split at h
  · cases h
  · cases h; rfl

theorem argv_of_foldlM {args : List Bytes} {ab ab' : ArgvBuilder}
    (h : args.foldlM ArgvBuilder.push ab = some ab') : ab'.argv = ab.argv ++ args := by
  induction args generalizing ab with
  | nil => cases h; exact (List.append_nil _).symm
  | cons arg args ih =>
    rw [List.foldlM_cons] at h
    obtain ⟨ab₁, hpush, h⟩ := Option.bind_eq_some_iff.mp h
    rw [ih h, argv_of_push hpush, List.append_assoc, List.singleton_append]

/-- What fits is passed on in full. -/
theorem tail_buildArgvRx {t : Tunnel} {keyFile statsLocal : Bytes} {argv : List Bytes}
    (h : buildArgvRx t keyFile statsLocal = some argv) :
    argv.tail = t.rxOptions keyFile statsLocal ++ (t.extraArgs ++ t.ifaces) := by
  obtain ⟨ab, hab, rfl⟩ := Option.map_eq_some_iff.mp h
  rw [argv_of_foldlM hab, List.nil_append, List.tail_cons, List.append_assoc]

/-! ## What the check leaves -/

/-- An address comes with a port. -/
def PortRead (t : TunnelCfg) : Prop := t.udpOut.1 ≠ [] → 0 < t.udpOut.2 ∧ t.udpOut.2 ≤ 65535

section

variable {long : ℕ}

theorem range_readUdpOut {v : List Tok} {u : Bytes × ℤ} (h : readUdpOut long v = some u) :
    0 < u.2 ∧ u.2 ≤ 65535 := by
  obtain ⟨tmp, -, h⟩ := Option.bind_eq_some_iff.mp h
  split at h
  · cases h
  · obtain ⟨hrange, h⟩ := Option.ite_none_left_eq_some.mp h
    cases h
    simp only
    omega

theorem portRead_parseRx {v : List Tok} {ifaces : List Bytes} {port : ℤ} {t : TunnelCfg}
    (h : Stats.parseRx long v ifaces port = some t) : PortRead t := by
  obtain ⟨udpOut, hudp, h⟩ := Option.bind_eq_some_iff.mp h
  simp only [bind, Option.bind_eq_some_iff] at h
  obtain ⟨_, -, _, -, _, -, _, -, h⟩ := h
  cases h
  intro haddr
  unfold Stats.optional at hudp
  split at hudp
  · obtain ⟨u, hu, rfl⟩ := Option.map_eq_some_iff.mp hudp
    exact range_readUdpOut hu
  · cases hudp
    exact absurd rfl haddr

theorem portRead_cfgExpandProfile {p : List Tok} {up down : ℕ} {ts : List TunnelCfg}
    (h : Stats.cfgExpandProfile long p up down = some ts) : ∀ t ∈ ts, PortRead t := by
  unfold Stats.cfgExpandProfile at h
  simp only [bind, Option.bind_eq_some_iff, Option.ite_none_left_eq_some] at h
  obtain ⟨_, -, _, -, -, _, -, -, _, -, -, _, -, -, _, -, -, h⟩ := h
  cases h
  simp [PortRead]

/-- A probe of an accepted configuration has a port of its own. -/
theorem probe_cfgLoad {buf : Bytes} {c : Config} (hload : cfgLoad long buf = some c) {t : Tunnel}
    (ht : t ∈ c.tunnels) (hrole : t.role = .rx) (hprobe : t.probe = true) :
    t.udpOut.1 ≠ [] ∧ 0 < t.udpOut.2 ∧ t.udpOut.2 ≤ 65535 ∧ t.udpOut.2 ≠ 5600 := by
  have hstats : Stats.cfgLoad long buf = some (c.tunnels.map Tunnel.stats) := by
    rw [← stats_cfgLoad, hload, Option.map_some]
  obtain ⟨hflood, hfrom⟩ := Stats.cfgLoad_inv hstats
  have hmem : t.stats ∈ c.tunnels.map Tunnel.stats := List.mem_map_of_mem ht
  have hport : PortRead t.stats := by
    rcases hfrom with ⟨p, up, down, hp⟩ | ⟨vs, hvs⟩
    · exact portRead_cfgExpandProfile hp _ hmem
    · obtain ⟨v, -, hv⟩ := Stats.mem_mapM hvs _ hmem
      obtain ⟨ifaces, port, -, h | h⟩ := Stats.cfgParseTunnel_inv hv
      · exact portRead_parseRx h
      · rw [Stats.parseTx_inv h]
        exact fun haddr => absurd rfl haddr
  rw [stats_any, List.any_eq_false] at hflood
  have hno := hflood t ht
  simp only [Tunnel.floodsVideo, hrole, hprobe, decide_true, Bool.true_and, Bool.or_eq_true,
    decide_eq_true_eq, not_or] at hno
  obtain ⟨hpos, hle⟩ := hport hno.1
  exact ⟨hno.1, hpos, hle, hno.2⟩

/-! ## Over the overlay -/

/-- The tunnels of an accepted configuration, before and after the overlay. -/
def Configured (long : ℕ) (c : Config) : Prop :=
  ∃ buf c₀, cfgLoad long buf = some c₀ ∧
    (c = c₀ ∨ ∃ file, c = cfgApplyWfbLinkOverlay long file c₀)

theorem exists_of_mem_right {α β : Type} {R : α → β → Prop} {xs : List α} {ys : List β}
    (h : List.Forall₂ R xs ys) : ∀ y ∈ ys, ∃ x ∈ xs, R x y := by
  induction h with
  | nil =>
    intro y hy
    cases hy
  | cons hxy _ ih =>
    intro y hy
    rcases List.mem_cons.mp hy with rfl | hy
    · exact ⟨_, List.mem_cons_self, hxy⟩
    · obtain ⟨x, hx, hR⟩ := ih y hy
      exact ⟨x, List.mem_cons_of_mem _ hx, hR⟩

theorem mem_overlay {file : Option Bytes} {c : Config} {t : Tunnel}
    (h : t ∈ (cfgApplyWfbLinkOverlay long file c).tunnels) :
    ∃ t₀ ∈ c.tunnels, t.frame = t₀.frame := by
  have hsparse := sparse_overlay long file c
  cases hdoc : overlayDoc file with
  | none =>
    rw [hsparse.malformed hdoc] at h
    exact ⟨t, h, rfl⟩
  | some doc =>
    obtain ⟨t₀, ht₀, hkept⟩ := exists_of_mem_right (hsparse.tunnels doc hdoc) t h
    exact ⟨t₀, ht₀, hkept.frame⟩

theorem probe_of_frame {t t₀ : Tunnel} (h : t.frame = t₀.frame) :
    t.role = t₀.role ∧ t.probe = t₀.probe ∧ t.udpOut = t₀.udpOut := by
  have hrole := congrArg Tunnel.role h
  have hprobe := congrArg Tunnel.probe h
  have hudp := congrArg Tunnel.udpOut h
  exact ⟨hrole, hprobe, hudp⟩

/-- The overlay has no say in where a probe goes. -/
theorem probe_configured {c : Config} (hc : Configured long c) {t : Tunnel} (ht : t ∈ c.tunnels)
    (hrole : t.role = .rx) (hprobe : t.probe = true) :
    t.udpOut.1 ≠ [] ∧ 0 < t.udpOut.2 ∧ t.udpOut.2 ≤ 65535 ∧ t.udpOut.2 ≠ 5600 := by
  obtain ⟨buf, c₀, hload, rfl | ⟨file, rfl⟩⟩ := hc
  · exact probe_cfgLoad hload ht hrole hprobe
  · obtain ⟨t₀, ht₀, hframe⟩ := mem_overlay ht
    obtain ⟨hrole₀, hprobe₀, hudp⟩ := probe_of_frame hframe
    rw [hudp]
    exact probe_cfgLoad hload ht₀ (hrole₀ ▸ hrole) (hprobe₀ ▸ hprobe)

end

/-! ## Main theorem -/

/-- Behind the port of the configuration no other one is named that is 5600. -/
def KeepsPort (port : Bytes → ℤ) (permute : Bool) (t : Tunnel) : Prop :=
  ∀ opts ∈ getopt permute none (t.extraArgs ++ t.ifaces), ∀ arg ∈ lastPort opts, port arg ≠ 5600

/-- For every probe of every configuration that is accepted, and every reading of port numbers that
reads one back as it was printed. -/
theorem probeIsolated_iff {long : ℕ} {port : Bytes → ℤ}
    (hport : ∀ n : ℤ, 0 < n → n ≤ 65535 → port (signed n) = n) (permute : Bool) {c : Config}
    (hc : Configured long c) {t : Tunnel} (ht : t ∈ c.tunnels) (hrole : t.role = .rx)
    (hprobe : t.probe = true) {statsLocal : Bytes} {argv : List Bytes}
    (hargv : buildArgvRx t c.keyFile statsLocal = some argv) :
    forwardPort port permute argv ≠ some 5600 ↔ KeepsPort port permute t := by
  obtain ⟨haddr, hpos, hle, hne⟩ := probe_configured hc ht hrole hprobe
  unfold forwardPort KeepsPort
  rw [tail_buildArgvRx hargv, getopt_argv]
  cases getopt permute none (t.extraArgs ++ t.ifaces) with
  | none => exact iff_of_true (nofun) (nofun)
  | some opts =>
    simp only [Option.map_some, lastPort_append, lastPort_rxPairs haddr, Option.mem_def,
      Option.some.injEq, forall_eq']
    cases lastPort opts with
    | none =>
      refine iff_of_true (fun h => hne ?_) (nofun)
      rw [← hport t.udpOut.2 hpos hle]
      exact Option.some.inj h
    | some arg =>
      simp only [Option.some_or, Option.map_some, Option.getD_some, ne_eq, Option.some.injEq,
        forall_eq']

theorem atoi_signed {long : ℕ} (hlong : 32 ≤ long) {n : ℤ} (hpos : 0 < n) (hle : n ≤ 65535) :
    atoi long (signed n) = n := by
  lift n to ℕ using hpos.le
  have hlt : n < 2 ^ (long - 1) := by
    have hpow : 2 ^ 31 ≤ 2 ^ (long - 1) := Nat.pow_le_pow_right (by decide) (by omega)
    omega
  have hread := strtol_decimal hlt (nofun : Ends [])
  rw [List.append_nil] at hread
  show i32 ((strtol long (decimal n)).getD 0) = n
  rw [hread]
  exact i32_of_range ⟨by simp only [Option.getD_some]; omega, by simp only [Option.getD_some]; omega⟩

/-- A configuration with one probe and these extra arguments. -/
def probeFile (extra : String) : Bytes :=
  ("\x7b\"tunnels\":[\x7b\"name\":\"probe\",\"role\":\"rx\",\"link_id\":50,\"interfaces\":[\"wlan0\"]," ++
    "\"udp_out\":\"127.0.0.1:5751\",\"probe\":true,\"extra_args\":[" ++ extra ++ "]\x7d]\x7d").toList

/-- The tunnel of it. -/
def probeTunnel (extraArgs : List Bytes) : Tunnel where
  name := "probe".toList
  role := .rx
  linkId := 50
  ifaces := ["wlan0".toList]
  udpOut := ("127.0.0.1".toList, 5751)
  probe := true
  probeWindowMs := 500
  extraArgs := extraArgs

/-- The command line for it. -/
def probeArgv (extraArgs : List Bytes) : List Bytes :=
  ["wfb_rx".toList, "-c".toList, "127.0.0.1".toList, "-u".toList, "5751".toList, "-i".toList,
    "50".toList, "-p".toList, "0".toList] ++ extraArgs ++ ["wlan0".toList]

theorem probeIsolated_plain :
    forwardPort (atoi 64) true (probeArgv ["-x".toList]) ≠ some 5600 ↔
      KeepsPort (atoi 64) true (probeTunnel ["-x".toList]) := by
  have hload : cfgLoad 64 (probeFile "\"-x\"") = some { tunnels := [probeTunnel ["-x".toList]] } := by
    decide +kernel
  have hargv : buildArgvRx (probeTunnel ["-x".toList]) [] [] = some (probeArgv ["-x".toList]) := by
    decide +kernel
  exact probeIsolated_iff (fun n => atoi_signed (by decide)) true ⟨_, _, hload, .inl rfl⟩
    List.mem_cons_self rfl rfl hargv

/-- An extra `-u` sends the payload of the probe to the video port, whichever `getopt` reads it. -/
theorem not_probeIsolated :
    ¬ ∃ permute, ∀ (c : Config), Configured 64 c → ∀ t ∈ c.tunnels, t.role = .rx → t.probe = true →
      ∀ argv, buildArgvRx t c.keyFile [] = some argv →
        forwardPort (atoi 64) permute argv ≠ some 5600 := by
  rintro ⟨permute, h⟩
  have hload : cfgLoad 64 (probeFile "\"-u\",\"5600\"") =
      some { tunnels := [probeTunnel ["-u".toList, "5600".toList]] } := by
    decide +kernel
  have hargv : buildArgvRx (probeTunnel ["-u".toList, "5600".toList]) [] [] =
      some (probeArgv ["-u".toList, "5600".toList]) := by
    decide +kernel
  have hvideo : ∀ permute,
      forwardPort (atoi 64) permute (probeArgv ["-u".toList, "5600".toList]) = some 5600 := by
    decide +kernel
  exact h _ ⟨_, _, hload, .inl rfl⟩ _ List.mem_cons_self rfl rfl _ hargv (hvideo permute)

end Waybeam.Ground.Cfg
