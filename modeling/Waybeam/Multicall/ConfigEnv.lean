/-
# `Waybeam.Multicall.ConfigEnv` — the link preset, as variables of a shell

    /etc/wfb-link.json  →  config-env  →  WFB_CHANNEL=161
                                          WFB_HTMODE='HT20'
                                          ...                →  eval "$(config-env ..)"

The boot script evaluates the output, as root.  Every field has a default, and a file that cannot be
read, is too long or is no object gives all of them.  Of the file's own texts a shell sees what is
between two quotes.
-/
import Waybeam.Shell
import Waybeam.Tokens

namespace Waybeam.Multicall

open Text Tokens

inductive Role where
  | drone
  | gs
  deriving DecidableEq, Repr

/-! ## Fields of the file -/

/-- A key of a section; a file that gives nothing has none. -/
def lookup (js : Option (List Tok)) (sec key : String) : Option (List Tok) :=
  (js.bind (jfind sec.toList)).bind (jfind key.toList)

def ceInt (long : ℕ) (js : Option (List Tok)) (sec key : String) (dflt : ℤ) : ℤ :=
  ((lookup js sec key).bind (jint long)).getD dflt

/-- Integers are taken for truth values as well. -/
def ceBool01 (long : ℕ) (js : Option (List Tok)) (sec key : String) (dflt : Bool) : Bool :=
  match lookup js sec key with
  | none => dflt
  | some v =>
      match jbool v, jint long v with
      | some b, _ => b
      | none, some l => l ≠ 0
      | none, none => dflt

/-- An empty string is none. -/
def ceStr (js : Option (List Tok)) (sec key dflt : String) : Bytes :=
  match (lookup js sec key).bind (jstr 256) with
  | some s => if s ≠ [] then fit 255 s else fit 255 dflt.toList
  | none => fit 255 dflt.toList

/-- How a number may begin. -/
def startsNumber (s : Bytes) : Bool :=
  s.head?.any fun c => c = '-' || c = '+' || c = '.' || c.isDigit

/-- The text of a number, as it is in the file. -/
def cePrim (js : Option (List Tok)) (sec key dflt : String) : Bytes :=
  match lookup js sec key with
  | some (t :: _) =>
      if t.type = .prim ∧ t.text ≠ [] ∧ t.text.length < 256 ∧ startsNumber t.text then cstr t.text
      else fit 255 dflt.toList
  | _ => fit 255 dflt.toList

/-! ## Lines of the output -/

def emitInt (name : String) (v : ℤ) : Bytes :=
  printf [([], name.toList), ("=".toList, signed v)] "\n".toList

def emitB01 (name : String) (v : Bool) : Bytes :=
  printf [([], name.toList), ("=".toList, signed (if v then 1 else 0))] "\n".toList

/-- Between single quotes, so that `eval` can never run what is in the value. -/
def emitStr (name : String) (v : Bytes) : Bytes :=
  printf [([], name.toList)] "='".toList ++
    (v.flatMap fun c => if c = '\x27' then "'\\''".toList else [c]) ++ "'\n".toList

/-! ## The tool -/

/-- Where in the file a variable comes from, how it is read, and what it is without. -/
inductive Field where
  | int (sec key : String) (dflt : ℤ)
  | bool01 (sec key : String) (dflt : Bool)
  | str (sec key dflt : String)
  | prim (sec key dflt : String)
  deriving DecidableEq, Repr

/-- The line of a variable. -/
def Field.emit (long : ℕ) (js : Option (List Tok)) (name : String) : Field → Bytes
  | .int sec key dflt => emitInt name (ceInt long js sec key dflt)
  | .bool01 sec key dflt => emitB01 name (ceBool01 long js sec key dflt)
  | .str sec key dflt => emitStr name (ceStr js sec key dflt)
  | .prim sec key dflt => emitStr name (cePrim js sec key dflt)

def keyDef : Role → String
  | .gs => "/etc/gs.key"
  | .drone => "/etc/drone.key"

/-- The variables, in their order. -/
def fields (role : Role) : List (String × Field) :=
  [("WFB_CHANNEL", .int "radio" "channel" 161),
    ("WFB_HTMODE", .str "radio" "htmode" "HT20"),
    ("WFB_BW", .int "radio" "bw" 20),
    ("WFB_TXPOWER", .int "radio" "txpower_mbm" 2000),
    ("WFB_TX_PWR_BY_RATE", .bool01 "radio" "tx_pwr_by_rate" false),
    ("WFB_MTU", .int "radio" "mtu" 4052),
    ("WFB_IFACE", .str "radio" "iface" "wlan0"),
    ("KEY", .str "key" "file" (keyDef role)),
    ("WFB_KEY_SEED", .str "key" "seed" "Waybeam"),
    ("WFB_VIDEO_OPEN", .bool01 "key" "open" true),
    ("WFB_TX_LINK", .int "links" "video" 207),
    ("WFB_RX_LINK", .int "links" "uplink" 208),
    ("WFB_PROBE_LINK", .int "links" "probe" 50),
    ("WFB_K", .int "fec" "k" 8),
    ("WFB_N", .int "fec" "n" 12),
    ("WFB_BITRATE_MIN", .int "fec" "bitrate_min_kbps" 2200),
    ("WFB_PAYLOAD_MAX", .int "fec" "payload_max" 0),
    ("WFB_PAYLOAD_MIN", .int "fec" "payload_min" 576),
    ("WFB_AIRTIME_MAX_PCT", .int "fec" "airtime_max_pct" 80),
    ("WFB_AIRTIME_PREAMBLE_US", .int "fec" "airtime_preamble_us" 40),
    ("WFB_MCS", .int "mcs" "boot" 2),
    ("WFB_MCS_MIN", .int "mcs" "min" 1),
    ("WFB_MCS_MAX", .int "mcs" "max" 7),
    ("WFB_PROBE", .bool01 "probe" "enabled" true),
    ("WFB_PEEK_PROFILE", .str "peek" "profile" "close"),
    ("WFB_LOG", .bool01 "log" "enabled" true),
    ("SHM_RING", .str "venc" "shm" "local_shm"),
    ("WFB_VENC_AUTOWIRE", .bool01 "venc" "auto_wire" true),
    ("WFB_FAILSAFE_S", .prim "failsafe" "uplink_s" "2.0"),
    ("SAFE_BITRATE", .int "venc" "safe_startup_kbps" 4096),
    ("WFB_VENC_HOST", .str "venc" "host" "127.0.0.1:80"),
    ("WFB_PROBE_PORT", .int "links" "probe_port" 50),
    ("WFB_CTRL", .int "ports" "video_ctrl" 8000),
    ("WFB_RX_FWD_PORT", .int "ports" "uplink_fwd" 5801),
    ("WFB_UPLINK_RX_PORT", .int "ports" "uplink_rx_stats" 5811),
    ("WFB_PROBE_CTRL", .int "ports" "probe_ctrl" 8001),
    ("WFB_PROBE_FEED", .int "ports" "probe_feed" 5750),
    ("WFB_RECOVERY", .bool01 "recovery" "enabled" true),
    ("WFB_RECOVERY_LINK", .int "links" "recovery" 209),
    ("WFB_RECOVERY_PORT", .int "ports" "recovery" 5802),
    ("WFB_RECOVERY_CMD", .str "recovery" "apfpv_cmd" "/etc/wfb/recovery-apfpv.sh")]

/-- The last argument that is no option. -/
def configPath (args : List Bytes) : Bytes :=
  args.foldl (fun path arg => if arg.head? = some '-' then path else arg) "/etc/wfb-link.json".toList

/-- What there is to read of a file: it has to be an object, and the buffer has to hold more than it. -/
def configDoc (file : Option Bytes) : Option (List Tok) :=
  file.bind fun content =>
    if content.length < 64 * 1024 then
      (jsonParse 512 content).filter fun toks => toks.head?.any (·.type = .obj)
    else none

/-- The output after its first line. -/
def configEnvBody (long : ℕ) (role : Role) (js : Option (List Tok)) : Bytes :=
  (fields role).flatMap fun f => f.2.emit long js f.1

/-- `wfb_configenv_main` -/
def wfbConfigenvMain (long : ℕ) (role : Role) (fopen : Bytes → Option Bytes) (args : List Bytes) : Bytes :=
  let path := configPath args
  let js := configDoc (fopen path)
  let src := if js.isSome then path else "built-in defaults".toList
  printf [("# wfb-link preset (source: ".toList, src)] ")\n".toList ++ configEnvBody long role js

/-! ## What a shell makes of it -/

/-- The right side of an assignment. -/
inductive Word where
  | int (v : ℤ)
  | quoted (v : Bytes)
  deriving DecidableEq, Repr

namespace Word

def text : Word → Bytes
  | .int v => signed v
  | .quoted v => Shell.quote v

/-- What the variable is then. -/
def value : Word → Bytes
  | .int v => signed v
  | .quoted v => v

theorem plain_of_mem_signed {l : ℤ} {c : Char} (h : c ∈ signed l) : Shell.plain c = true := by
  have hdigit : ∀ {n : ℕ}, c ∈ decimal n → Shell.plain c = true := by
    intro n hc
    simp [Shell.plain, Char.isAlphanum, isDigit_of_mem_decimal hc]
  cases l with
  | ofNat n => exact hdigit h
  | negSucc n =>
      rcases List.mem_cons.mp h with rfl | h
      · rfl
      · exact hdigit h

/-- A shell reads the value of it. -/
theorem reads (w : Word) : Shell.Reads w.text w.value := by
  cases w with
  | int v => exact Shell.reads_plain fun c hc => plain_of_mem_signed hc
  | quoted v => exact Shell.reads_quote v

end Word

/-- What a field gives: what is in the file, or the default. -/
def Field.word (long : ℕ) (js : Option (List Tok)) : Field → Word
  | .int sec key dflt => .int (ceInt long js sec key dflt)
  | .bool01 sec key dflt => .int (if ceBool01 long js sec key dflt then 1 else 0)
  | .str sec key dflt => .quoted (ceStr js sec key dflt)
  | .prim sec key dflt => .quoted (cePrim js sec key dflt)

theorem emitInt_eq (name : String) (v : ℤ) : emitInt name v = Shell.line name.toList (signed v) := rfl

theorem emitStr_eq (name : String) (v : Bytes) :
    emitStr name v = Shell.line name.toList (Shell.quote v) := by
  have hchar : (fun c => if c = '\x27' then "'\\''".toList else [c]) = Shell.quoteChar := rfl
  rw [emitStr, hchar]
  simp [printf, Shell.line, Shell.quote]

/-- Every line of the output is the assignment of a word. -/
theorem Field.emit_eq (long : ℕ) (js : Option (List Tok)) (name : String) (f : Field) :
    f.emit long js name = Shell.line name.toList (f.word long js).text := by
  cases f with
  | int sec key dflt => exact emitInt_eq name _
  | bool01 sec key dflt => exact emitInt_eq name _
  | str sec key dflt => exact emitStr_eq name _
  | prim sec key dflt => exact emitStr_eq name _

/-- The variables with their words. -/
def assignments (long : ℕ) (role : Role) (js : Option (List Tok)) : List (String × Word) :=
  (fields role).map fun f => (f.1, f.2.word long js)

/-- The names, the same for every file. -/
def varNames : List String := (fields .drone).map Prod.fst

theorem assignments_names (long : ℕ) (role : Role) (js : Option (List Tok)) :
    (assignments long role js).map Prod.fst = varNames := by
  cases role <;> rfl

theorem configEnvBody_eq (long : ℕ) (role : Role) (js : Option (List Tok)) :
    configEnvBody long role js =
      (assignments long role js).flatMap fun v => Shell.line v.1.toList v.2.text := by
  rw [configEnvBody, assignments, List.flatMap_map]
  exact List.flatMap_congr fun f _ => f.2.emit_eq long js f.1

theorem isName_of_mem {long : ℕ} {role : Role} {js : Option (List Tok)} {v : String × Word}
    (hv : v ∈ assignments long role js) : Shell.isName v.1.toList = true := by
  have hmem : v.1 ∈ varNames := by
    rw [← assignments_names long role js]
    exact List.mem_map_of_mem hv
  have hall : ∀ name ∈ varNames, Shell.isName name.toList = true := by decide
  exact hall v.1 hmem

/-- The text assigns to each of the variables the value of its word, and does nothing else. -/
structure SafeToEval (out : Bytes) (vars : List (String × Word)) : Prop where
  lines : out = vars.flatMap fun v => Shell.line v.1.toList v.2.text
  evaluated : Shell.evaluate out = some (vars.map fun v => (v.1.toList, v.2.value))
  /-- as in `eval "$(..)"` -/
  substituted : Shell.evaluate (Shell.substituted out) = some (vars.map fun v => (v.1.toList, v.2.value))

theorem SafeToEval.of_lines {vars before : List (String × Word)} {name : String} {v : Bytes}
    (hlast : vars = before ++ [(name, .quoted v)])
    (hname : ∀ u ∈ vars, Shell.isName u.1.toList = true) :
    SafeToEval (vars.flatMap fun u => Shell.line u.1.toList u.2.text) vars := by
  refine ⟨rfl, ?_, ?_⟩
  · rw [Shell.evaluate, Shell.feed_lines hname fun u _ => u.2.reads]
    rfl
  · -- the substitution takes the end of the last line off; its word ends in a quote
    have hquote : Shell.quote v = ('\x27' :: v.flatMap Shell.quoteChar) ++ ['\x27'] := rfl
    subst hlast
    have hbefore : ∀ u ∈ before, Shell.isName u.1.toList = true := fun u hu =>
      hname u (List.mem_append_left _ hu)
    have hlast : Shell.isName name.toList = true :=
      hname (name, .quoted v) (List.mem_append_right _ List.mem_cons_self)
    rw [List.flatMap_append, List.flatMap_singleton]
    show Shell.evaluate (Shell.substituted (_ ++ Shell.line name.toList (Shell.quote v))) = _
    rw [hquote, Shell.substituted_line (by decide), ← hquote, Shell.evaluate, List.foldlM_append,
      Shell.feed_lines hbefore fun u _ => u.2.reads, Option.bind_eq_bind, Option.bind_some,
      Shell.feed_word hlast (Shell.reads_quote v), List.map_append]
    rfl

/-- The last of the variables has a string. -/
theorem assignments_last (long : ℕ) (role : Role) (js : Option (List Tok)) :
    ∃ before v, assignments long role js = before ++ [("WFB_RECOVERY_CMD", .quoted v)] :=
  ⟨(assignments long role js).dropLast,
    ceStr js "recovery" "apfpv_cmd" "/etc/wfb/recovery-apfpv.sh", rfl⟩

theorem safeToEval_body (long : ℕ) (role : Role) (js : Option (List Tok)) :
    SafeToEval (configEnvBody long role js) (assignments long role js) := by
  obtain ⟨before, v, hlast⟩ := assignments_last long role js
  rw [configEnvBody_eq]
  exact .of_lines hlast fun u hu => isName_of_mem hu

/-- Whatever is in the file, the output behind its first line sets the variables, and only them. -/
theorem config_env_safe (long : ℕ) (role : Role) (file : Option Bytes) :
    SafeToEval (configEnvBody long role (configDoc file)) (assignments long role (configDoc file)) ∧
      (assignments long role (configDoc file)).map Prod.fst = varNames ∧ varNames.Nodup :=
  ⟨safeToEval_body long role _, assignments_names long role _, by decide⟩

/-- The first line is a comment, unless the path of the file runs over several. -/
theorem config_env_eval (long : ℕ) (role : Role) (fopen : Bytes → Option Bytes) (args : List Bytes)
    (hpath : '\n' ∉ configPath args) :
    Shell.evaluate (wfbConfigenvMain long role fopen args) =
      some ((assignments long role (configDoc (fopen (configPath args)))).map fun v =>
        (v.1.toList, v.2.value)) := by
  set js := configDoc (fopen (configPath args)) with hjs
  set src := if js.isSome then configPath args else "built-in defaults".toList with hsrc
  have hcomment : '\n' ∉ " wfb-link preset (source: ".toList ++ (src ++ [')']) := by
    have hnosrc : '\n' ∉ src := by
      rw [hsrc]
      split
      · exact hpath
      · decide
    simp only [List.mem_append, not_or]
    exact ⟨by decide, hnosrc, by decide⟩
  have hout : wfbConfigenvMain long role fopen args =
      ('#' :: ((" wfb-link preset (source: ".toList ++ (src ++ [')'])) ++ ['\n'])) ++
        configEnvBody long role js := by
    have hfirst : ∀ body : Bytes, printf [("# wfb-link preset (source: ".toList, src)] ")\n".toList ++ body =
        ('#' :: ((" wfb-link preset (source: ".toList ++ (src ++ [')'])) ++ ['\n'])) ++ body := by
      intro body
      simp [printf]
    exact hfirst _
  have hbody := (safeToEval_body long role js).evaluated
  rw [Shell.evaluate] at hbody ⊢
  rw [hout, List.foldlM_append, Shell.feed_comment hcomment, Option.bind_eq_bind, Option.bind_some]
  exact hbody

end Waybeam.Multicall
