/-
# `Waybeam.Ground.Overlay` — the link preset over the configuration

`/etc/wfb-link.json` is read after the supervisor's own file and goes over it:

    key.file                          the key file
    links.video, .uplink, .probe      the link id of the tunnel of that name
    fec.k, fec.n, mcs.boot, radio.bw  every tx tunnel, when not negative
    radio.htmode                      the width in the commands of `system.up` (`rewriteWidth`)

What the file does not have is left alone, and a second time changes nothing.
-/
import Waybeam.Ground.Load
import Waybeam.Ground.Width

namespace Waybeam.Ground.Cfg

open Text Tokens
open Stats (ofType)

/-! ## The keys -/

/-- The value of a key in a section. -/
def sectionKey (doc : List Tok) (sec key : String) : Option (List Tok) :=
  (ofType .obj (jfind sec.toList doc)).bind (jfind key.toList)

/-- A number, as an `int`. -/
def sectionInt (long : ℕ) (doc : List Tok) (sec key : String) : Option ℤ :=
  ((sectionKey doc sec key).bind (jint long)).map i32

/-- A number that is not negative. -/
def sectionNat (long : ℕ) (doc : List Tok) (sec key : String) : Option ℤ :=
  (sectionInt long doc sec key).filter (0 ≤ ·)

/-- A string, into a buffer. -/
def sectionStr (doc : List Tok) (sec key : String) (cap : ℕ) : Option Bytes :=
  (ofType .str (sectionKey doc sec key)).bind (jstr cap)

/-- The widths that may be asked for. -/
def htmodes : List Bytes := ["HT20".toList, "HT40+".toList, "HT40-".toList]

def htmode (doc : List Tok) : Option Bytes := (sectionStr doc "radio" "htmode" 8).filter (· ∈ htmodes)

/-! ## `cfg_apply_wfb_link_overlay` -/

/-- `cfg_tunnel_by_name`, and what is done to that tunnel. -/
def updateNamed (name : Bytes) (f : Tunnel → Tunnel) : List Tunnel → List Tunnel
  | [] => []
  | t :: ts => if t.name = name then f t :: ts else t :: updateNamed name f ts

def linkNames : List String := ["video", "uplink", "probe"]

def Tunnel.withLink (id : ℤ) (t : Tunnel) : Tunnel := { t with linkId := id }

/-- The link id of the tunnel of that name. -/
def overlayLink (long : ℕ) (doc : List Tok) (name : String) (ts : List Tunnel) : List Tunnel :=
  match sectionInt long doc "links" name with
  | some id => updateNamed name.toList (Tunnel.withLink id) ts
  | none => ts

/-- A tx tunnel takes over what the file has. -/
def overlayTx (long : ℕ) (doc : List Tok) (t : Tunnel) : Tunnel :=
  if t.role = .tx then
    { t with
      fecK := (sectionNat long doc "fec" "k").getD t.fecK
      fecN := (sectionNat long doc "fec" "n").getD t.fecN
      mcsIndex := (sectionNat long doc "mcs" "boot").getD t.mcsIndex
      bandwidthMhz := (sectionNat long doc "radio" "bw").getD t.bandwidthMhz }
  else t

def overlayTunnels (long : ℕ) (doc : List Tok) (ts : List Tunnel) : List Tunnel :=
  (linkNames.foldl (fun ts name => overlayLink long doc name ts) ts).map (overlayTx long doc)

/-- The overlay as it was read; `none` where the file is not there, too long, or no object. -/
def overlayDoc (file : Option Bytes) : Option (List Tok) :=
  file.bind fun buf =>
    if buf = [] ∨ 256 * 1024 < buf.length then none else ofType .obj (jsonParse 512 buf)

/-- `cfg_apply_wfb_link_overlay` -/
def cfgApplyWfbLinkOverlay (long : ℕ) (file : Option Bytes) (c : Config) : Config :=
  match overlayDoc file with
  | none => c
  | some doc =>
      { c with
        keyFile := (sectionStr doc "key" "file" 256).getD c.keyFile
        tunnels := overlayTunnels long doc c.tunnels
        systemUp := match htmode doc with
          | some ht => c.systemUp.map (rewriteWidth ht)
          | none => c.systemUp }

/-! ## What stays -/

/-- A tunnel without the fields that an overlay has. -/
def Tunnel.frame (t : Tunnel) : Tunnel :=
  { t with linkId := 0, fecK := 0, fecN := 0, mcsIndex := 0, bandwidthMhz := 0 }

/-- A tunnel is left alone but for what the file has for it. -/
structure SparseTunnel (long : ℕ) (doc : List Tok) (t t' : Tunnel) : Prop where
  frame : t'.frame = t.frame
  linkId : (∀ name ∈ linkNames, t.name = name.toList → sectionInt long doc "links" name = none) →
    t'.linkId = t.linkId
  fecK : (t.role = .tx → sectionNat long doc "fec" "k" = none) → t'.fecK = t.fecK
  fecN : (t.role = .tx → sectionNat long doc "fec" "n" = none) → t'.fecN = t.fecN
  mcsIndex : (t.role = .tx → sectionNat long doc "mcs" "boot" = none) → t'.mcsIndex = t.mcsIndex
  bandwidthMhz : (t.role = .tx → sectionNat long doc "radio" "bw" = none) →
    t'.bandwidthMhz = t.bandwidthMhz

/-- A configuration is left alone but for what the file has. -/
structure Sparse (long : ℕ) (file : Option Bytes) (c c' : Config) : Prop where
  malformed : overlayDoc file = none → c' = c
  keyFile : ∀ doc ∈ overlayDoc file, sectionStr doc "key" "file" 256 = none → c'.keyFile = c.keyFile
  systemUp : ∀ doc ∈ overlayDoc file, htmode doc = none → c'.systemUp = c.systemUp
  systemDown : c'.systemDown = c.systemDown
  tunnels : ∀ doc ∈ overlayDoc file, List.Forall₂ (SparseTunnel long doc) c.tunnels c'.tunnels

namespace SparseTunnel

variable {long : ℕ} {doc : List Tok} {t t' t'' : Tunnel}

theorem refl (t : Tunnel) : SparseTunnel long doc t t :=
  ⟨rfl, fun _ => rfl, fun _ => rfl, fun _ => rfl, fun _ => rfl, fun _ => rfl⟩

theorem name_eq (h : SparseTunnel long doc t t') : t'.name = t.name := by
  have hname := congrArg Tunnel.name h.frame
  exact hname

theorem role_eq (h : SparseTunnel long doc t t') : t'.role = t.role := by
  have hrole := congrArg Tunnel.role h.frame
  exact hrole

theorem trans (h : SparseTunnel long doc t t') (h' : SparseTunnel long doc t' t'') :
    SparseTunnel long doc t t'' where
  frame := h'.frame.trans h.frame
  linkId := fun hno => (h'.linkId (by rwa [h.name_eq])).trans (h.linkId hno)
  fecK := fun hno => (h'.fecK (by rwa [h.role_eq])).trans (h.fecK hno)
  fecN := fun hno => (h'.fecN (by rwa [h.role_eq])).trans (h.fecN hno)
  mcsIndex := fun hno => (h'.mcsIndex (by rwa [h.role_eq])).trans (h.mcsIndex hno)
  bandwidthMhz := fun hno => (h'.bandwidthMhz (by rwa [h.role_eq])).trans (h.bandwidthMhz hno)

end SparseTunnel

section

variable {long : ℕ} {doc : List Tok}

instance : Std.Refl (SparseTunnel long doc) := ⟨.refl⟩

theorem forall₂_trans {ts ts' ts'' : List Tunnel} (h : List.Forall₂ (SparseTunnel long doc) ts ts')
    (h' : List.Forall₂ (SparseTunnel long doc) ts' ts'') :
    List.Forall₂ (SparseTunnel long doc) ts ts'' := by
  induction h generalizing ts'' with
  | nil => exact h'
  | cons ht _ ih =>
    cases h' with
    | cons ht' h' => exact .cons (ht.trans ht') (ih h')

theorem sparse_overlayLink {name : String} (hname : name ∈ linkNames) (ts : List Tunnel) :
    List.Forall₂ (SparseTunnel long doc) ts (overlayLink long doc name ts) := by
  unfold overlayLink
  cases hid : sectionInt long doc "links" name with
  | none => exact List.forall₂_refl ts
  | some id =>
    simp only
    induction ts with
    | nil => exact .nil
    | cons t ts ih =>
      rw [updateNamed]
      split
      · rename_i ht
        refine .cons ⟨rfl, fun hno => ?_, fun _ => rfl, fun _ => rfl, fun _ => rfl, fun _ => rfl⟩
          (List.forall₂_refl ts)
        exact absurd (hno name hname ht) (by rw [hid]; simp)
      · exact .cons (.refl t) ih

theorem sparse_overlayLinks (names : List String) (hnames : ∀ name ∈ names, name ∈ linkNames)
    (ts : List Tunnel) : List.Forall₂ (SparseTunnel long doc) ts
      (names.foldl (fun ts name => overlayLink long doc name ts) ts) := by
  induction names generalizing ts with
  | nil => exact List.forall₂_refl ts
  | cons name names ih =>
    obtain ⟨hname, hnames⟩ := List.forall_mem_cons.mp hnames
    exact forall₂_trans (sparse_overlayLink hname ts) (ih hnames _)

theorem sparse_overlayTx (t : Tunnel) : SparseTunnel long doc t (overlayTx long doc t) := by
  unfold overlayTx
  split
  · rename_i hrole
    exact ⟨rfl, fun _ => rfl, fun hno => by rw [hno hrole]; rfl, fun hno => by rw [hno hrole]; rfl,
      fun hno => by rw [hno hrole]; rfl, fun hno => by rw [hno hrole]; rfl⟩
  · exact .refl t

theorem sparse_overlayTunnels (ts : List Tunnel) :
    List.Forall₂ (SparseTunnel long doc) ts (overlayTunnels long doc ts) := by
  refine forall₂_trans (sparse_overlayLinks linkNames (fun _ h => h) ts) ?_
  exact List.forall₂_map_right_iff.mpr (List.forall₂_same.mpr fun t _ => sparse_overlayTx t)

theorem sparse_overlay (long : ℕ) (file : Option Bytes) (c : Config) :
    Sparse long file c (cfgApplyWfbLinkOverlay long file c) := by
  unfold cfgApplyWfbLinkOverlay
  cases hdoc : overlayDoc file with
  | none => exact ⟨fun _ => rfl, fun doc h => (nomatch h.symm.trans hdoc), fun doc h =>
      (nomatch h.symm.trans hdoc), rfl, fun doc h => (nomatch h.symm.trans hdoc)⟩
  | some doc =>
    refine ⟨fun h => ?_, fun d hd hno => ?_, fun d hd hno => ?_, rfl, fun d hd => ?_⟩
    · cases hdoc.symm.trans h
    · cases hdoc.symm.trans hd
      simp only [hno, Option.getD_none]
    · cases hdoc.symm.trans hd
      simp only [hno]
    · cases hdoc.symm.trans hd
      exact sparse_overlayTunnels c.tunnels

/-! ## Twice -/

/-- Steps that commute and repeat to no effect do so together. -/
theorem foldl_idem {α β : Type*} {F : α → β → β} (hidem : ∀ b x, F x (F x b) = F x b)
    (hcomm : ∀ b x y, F x (F y b) = F y (F x b)) (xs : List α) (b : β) :
    xs.foldl (fun b x => F x b) (xs.foldl (fun b x => F x b) b) = xs.foldl (fun b x => F x b) b := by
  have hpast : ∀ (xs : List α) (b : β) (y : α),
      F y (xs.foldl (fun b x => F x b) b) = xs.foldl (fun b x => F x b) (F y b) := by
    intro xs
    induction xs with
    | nil => intro b y; rfl
    | cons x xs ih =>
      intro b y
      rw [List.foldl_cons, List.foldl_cons, ih, hcomm]
  induction xs generalizing b with
  | nil => rfl
  | cons x xs ih => rw [List.foldl_cons, List.foldl_cons, hpast, hidem, ih]

/-- Only what a tunnel is asked for by name tells which one is updated. -/
def KeepsName (f : Tunnel → Tunnel) : Prop := ∀ t, (f t).name = t.name

theorem updateNamed_idem {name : Bytes} {f : Tunnel → Tunnel} (hf : KeepsName f)
    (hff : ∀ t, f (f t) = f t) (ts : List Tunnel) :
    updateNamed name f (updateNamed name f ts) = updateNamed name f ts := by
  induction ts with
  | nil => rfl
  | cons t ts ih =>
    rw [updateNamed]
    split
    · rename_i ht
      rw [updateNamed, hf, if_pos ht, hff]
    · rename_i ht
      rw [updateNamed, if_neg ht, ih]

theorem updateNamed_comm {name name' : Bytes} (hne : name ≠ name') {f g : Tunnel → Tunnel}
    (hf : KeepsName f) (hg : KeepsName g) (ts : List Tunnel) :
    updateNamed name f (updateNamed name' g ts) = updateNamed name' g (updateNamed name f ts) := by
  induction ts with
  | nil => rfl
  | cons t ts ih =>
    by_cases h : t.name = name
    · have h' : t.name ≠ name' := fun h' => hne (h.symm.trans h')
      rw [updateNamed, if_neg h', updateNamed, if_pos h, updateNamed, if_pos h, updateNamed,
        if_neg (by rwa [hf])]
    · by_cases h' : t.name = name'
      · rw [updateNamed, if_pos h', updateNamed, if_neg (by rwa [hg]), updateNamed, if_neg h,
          updateNamed, if_pos h']
      · rw [updateNamed, if_neg h', updateNamed, if_neg h, updateNamed, if_neg h, updateNamed,
          if_neg h', ih]

theorem map_updateNamed {name : Bytes} {f g : Tunnel → Tunnel} (hg : KeepsName g)
    (hfg : ∀ t, g (f t) = f (g t)) (ts : List Tunnel) :
    (updateNamed name f ts).map g = updateNamed name f (ts.map g) := by
  induction ts with
  | nil => rfl
  | cons t ts ih =>
    rw [updateNamed, List.map_cons, updateNamed, hg]
    split
    · rw [List.map_cons, hfg]
    · rw [List.map_cons, ih]

theorem keepsName_withLink (id : ℤ) : KeepsName (Tunnel.withLink id) := fun _ => rfl

theorem overlayLink_idem (ts : List Tunnel) (name : String) :
    overlayLink long doc name (overlayLink long doc name ts) = overlayLink long doc name ts := by
  unfold overlayLink
  cases sectionInt long doc "links" name with
  | none => rfl
  | some id => exact updateNamed_idem (keepsName_withLink id) (fun _ => rfl) ts

theorem overlayLink_comm (ts : List Tunnel) (name name' : String) :
    overlayLink long doc name (overlayLink long doc name' ts) =
      overlayLink long doc name' (overlayLink long doc name ts) := by
  by_cases hname : name = name'
  · rw [hname]
  · unfold overlayLink
    cases sectionInt long doc "links" name with
    | none => rfl
    | some id =>
      cases sectionInt long doc "links" name' with
      | none => rfl
      | some id' =>
        exact updateNamed_comm (fun h => hname (String.toList_injective h)) (keepsName_withLink id)
          (keepsName_withLink id') ts

theorem overlayTx_withLink (id : ℤ) (t : Tunnel) :
    overlayTx long doc (t.withLink id) = (overlayTx long doc t).withLink id := by
  have hsame : (t.withLink id).role = t.role := rfl
  by_cases hrole : t.role = .tx
  · rw [overlayTx, if_pos (hsame.trans hrole), overlayTx, if_pos hrole]; rfl
  · rw [overlayTx, if_neg (hsame ▸ hrole), overlayTx, if_neg hrole]

theorem overlayTx_name (t : Tunnel) : (overlayTx long doc t).name = t.name :=
  (sparse_overlayTx t).name_eq

theorem getD_getD {α : Type*} (o : Option α) (a : α) : o.getD (o.getD a) = o.getD a := by
  cases o <;> rfl

theorem overlayTx_idem (t : Tunnel) : overlayTx long doc (overlayTx long doc t) = overlayTx long doc t := by
  by_cases hrole : t.role = .tx
  · simp only [overlayTx, if_pos hrole, getD_getD]
  · simp only [overlayTx, if_neg hrole]

theorem map_overlayLink (name : String) (ts : List Tunnel) :
    (overlayLink long doc name ts).map (overlayTx long doc) =
      overlayLink long doc name (ts.map (overlayTx long doc)) := by
  unfold overlayLink
  cases sectionInt long doc "links" name with
  | none => rfl
  | some id => exact map_updateNamed overlayTx_name (overlayTx_withLink id) ts

theorem map_overlayLinks (names : List String) (ts : List Tunnel) :
    (names.foldl (fun ts name => overlayLink long doc name ts) ts).map (overlayTx long doc) =
      names.foldl (fun ts name => overlayLink long doc name ts) (ts.map (overlayTx long doc)) := by
  induction names generalizing ts with
  | nil => rfl
  | cons name names ih => rw [List.foldl_cons, List.foldl_cons, ih, map_overlayLink]

theorem overlayTunnels_idem (ts : List Tunnel) :
    overlayTunnels long doc (overlayTunnels long doc ts) = overlayTunnels long doc ts := by
  simp only [overlayTunnels, map_overlayLinks, List.map_map, Function.comp_def, overlayTx_idem]
  exact foldl_idem overlayLink_idem overlayLink_comm linkNames _

theorem overlay_idem (long : ℕ) (file : Option Bytes) (c : Config) :
    cfgApplyWfbLinkOverlay long file (cfgApplyWfbLinkOverlay long file c) =
      cfgApplyWfbLinkOverlay long file c := by
  unfold cfgApplyWfbLinkOverlay
  cases overlayDoc file with
  | none => rfl
  | some doc =>
    simp only [getD_getD, overlayTunnels_idem]
    cases htmode doc with
    | none => rfl
    | some ht => simp only [List.map_map, Function.comp_def, rewriteWidth_idem]

end

/-! ## Main theorem -/

/-- The lines of `system.up` keep every word but the widths. -/
def LinesKept (c c' : Config) : Prop := List.Forall₂ SameButWidths c.systemUp c'.systemUp

/-- The overlay is a patch of what the file has, twice is once, and of the commands only widths
change. -/
structure SparsePatch (long : ℕ) (file : Option Bytes) (c : Config) : Prop where
  sparse : Sparse long file c (cfgApplyWfbLinkOverlay long file c)
  lines : LinesKept c (cfgApplyWfbLinkOverlay long file c)
  twice : cfgApplyWfbLinkOverlay long file (cfgApplyWfbLinkOverlay long file c) =
    cfgApplyWfbLinkOverlay long file c

/-- Where the file asks for a width, every line that is rewritten has nothing behind the channel but
a width. -/
def WidthsLast (file : Option Bytes) (c : Config) : Prop :=
  ∀ doc ∈ overlayDoc file, ∀ ht ∈ htmode doc, ∀ line ∈ c.systemUp, WidthLast ht line

theorem words_htmode {ht : Bytes} (h : ht ∈ htmodes) : ht ∈ widths ∧ words ht = [ht] := by
  revert ht
  decide

theorem linesKept_iff (long : ℕ) (file : Option Bytes) (c : Config) :
    LinesKept c (cfgApplyWfbLinkOverlay long file c) ↔ WidthsLast file c := by
  have hsame : List.Forall₂ SameButWidths c.systemUp c.systemUp :=
    List.forall₂_same.mpr fun line _ => rfl
  unfold LinesKept WidthsLast cfgApplyWfbLinkOverlay
  cases hdoc : overlayDoc file with
  | none => exact iff_of_true hsame fun doc h => nomatch h
  | some doc =>
    cases hht : htmode doc with
    | none =>
      simp only [hht]
      refine iff_of_true hsame fun d hd ht h => ?_
      cases hd
      cases hht.symm.trans h
    | some ht =>
      simp only [hht]
      rw [List.forall₂_map_right_iff, List.forall₂_same]
      obtain ⟨hwidth, hword⟩ := words_htmode (of_decide_eq_true (Option.filter_eq_some_iff.mp hht).2)
      constructor
      · intro h d hd ht' hht' line hline
        cases hd
        cases hht.symm.trans hht'
        exact (sameButWidths_iff hwidth hword line).mp (h line hline)
      · intro h line hline
        exact (sameButWidths_iff hwidth hword line).mpr (h doc rfl ht hht line hline)

/-- For every file over every configuration. -/
theorem sparsePatch_iff (long : ℕ) (file : Option Bytes) (c : Config) :
    SparsePatch long file c ↔ WidthsLast file c := by
  rw [← linesKept_iff long]
  constructor
  · intro h
    exact h.lines
  · intro h
    exact ⟨sparse_overlay long file c, h, overlay_idem long file c⟩

/-- A file that asks for 40 MHz. -/
def wideFile : Bytes := "\x7b\"radio\":\x7b\"htmode\":\"HT40+\"\x7d\x7d".toList

/-- A command that names its interface behind the width. -/
def tuneConfig : Config := { systemUp := ["tune set channel 161 HT20 dev wlx0".toList] }

/-- The interface is dropped with the old width. -/
theorem not_sparsePatch : ¬ ∀ (file : Option Bytes) (c : Config), SparsePatch 64 file c := by
  intro h
  have hlines := (h (some wideFile) tuneConfig).lines
  have hnew : (cfgApplyWfbLinkOverlay 64 (some wideFile) tuneConfig).systemUp =
      ["tune set channel 161 HT40+".toList] := by decide
  rw [LinesKept, hnew] at hlines
  have hline := (List.forall₂_cons.mp hlines).1
  revert hline
  unfold SameButWidths
  decide

end Waybeam.Ground.Cfg
