import FurOS.Foundation.Pairs
import FurOS.Installer.Ready
import FurOS.Installer.Typing

/-! Nothing of a password but its length.

Two runs of the wizard, in which other characters are typed where a password is asked for. As long as the passwords are
as long as each other, and are confirmed or not in both, the screens are the same, and so is what is installed
(`passwords_hidden`). -/
namespace FurOS.Installer
open Foundation (Together Paired stepsOf seen)

/-! ### What is alike -/

/-- The same answers, with other passwords of the same length. -/
def WizAlike (w w' : Wiz) : Prop :=
  ∃ rootPw userPw : InputBuffer 64, rootPw.chars.length = w.rootPw.chars.length ∧
    userPw.chars.length = w.userPw.chars.length ∧ w' = {w with rootPw := rootPw, userPw := userPw}

inductive PromptAlike : Prompt → Prompt → Prop where
  | same (prompt : Prompt) : PromptAlike prompt prompt
  | rootConfirm {confirm confirm' : InputBuffer 64} : confirm'.chars.length = confirm.chars.length →
      PromptAlike (.rootConfirm confirm) (.rootConfirm confirm')
  | userConfirm {confirm confirm' : InputBuffer 64} : confirm'.chars.length = confirm.chars.length →
      PromptAlike (.userConfirm confirm) (.userConfirm confirm')

/-- All that is not asked. -/
structure Surroundings (u u' : Ui) : Prop where
  ws : WizAlike u.ws u'.ws
  nodes : u'.nodes = u.nodes
  disk : u'.disk = u.disk
  screen : u'.screen = u.screen

structure Alike (u u' : Ui) : Prop extends Surroundings u u' where
  prompt : PromptAlike u.prompt u'.prompt

/-- A password is being typed. -/
def Prompt.masked : Prompt → Bool
  | .rootPw | .rootConfirm _ | .userPw | .userConfirm _ => true
  | _ => false

/-- The confirmation is the password. -/
def Ui.confirmed (u : Ui) : Bool :=
  match u.prompt with
  | .rootConfirm confirm => u.ws.rootPw.chars = confirm.chars
  | .userConfirm confirm => u.ws.userPw.chars = confirm.chars
  | _ => true

/-- The same key, or two characters of a password; and what is entered is confirmed in both, or in neither. -/
def KeysAlike (u u' : Ui) (key key' : Key) : Prop :=
  (key' = key ∨ u.prompt.masked = true ∧ isPrintable key.toUInt8 = true ∧ isPrintable key'.toUInt8 = true) ∧
    (key = 10 ∨ key = 13 → u'.confirmed = u.confirmed)

theorem WizAlike.refl (w : Wiz) : WizAlike w w := ⟨w.rootPw, w.userPw, rfl, rfl, rfl⟩

theorem Alike.refl (u : Ui) : Alike u u := ⟨⟨.refl _, rfl, rfl, rfl⟩, .same _⟩

/-! ### One key -/

/-- What a key does to two texts of the same length. -/
inductive TypedAlike {cap : Nat} : Typed cap → Typed cap → Prop where
  | typing {buf buf' : InputBuffer cap} : buf'.chars.length = buf.chars.length →
      TypedAlike (.typing buf) (.typing buf')
  | entered : TypedAlike .entered .entered
  | escaped : TypedAlike .escaped .escaped

/-- Characters are none of the keys that `run_input` looks for. -/
theorem printable_key {key : Key} (h : isPrintable key.toUInt8 = true) :
    ¬ (key = 10 ∨ key = 13) ∧ ¬ key = 27 ∧ ¬ key = 8 := by
  refine ⟨?_, ?_, ?_⟩
  · rintro (rfl | rfl)
    · exact absurd h (by decide)
    · exact absurd h (by decide)
  · rintro rfl
    exact absurd h (by decide)
  · rintro rfl
    exact absurd h (by decide)

theorem inputKey_alike {cap : Nat} {buf buf' : InputBuffer cap} (hlen : buf'.chars.length = buf.chars.length)
    {key key' : Key} (hkey : key' = key ∨ isPrintable key.toUInt8 = true ∧ isPrintable key'.toUInt8 = true) :
    TypedAlike (inputKey buf key) (inputKey buf' key') := by
  have hback : buf'.chars ≠ [] ↔ buf.chars ≠ [] := by
    rw [← List.length_pos_iff_ne_nil, ← List.length_pos_iff_ne_nil, hlen]
  have hpush {c c' : UInt8} (h : isPrintable c = true ∧ buf.chars.length < cap - 1)
      (h' : isPrintable c' = true ∧ buf'.chars.length < cap - 1) :
      (buf'.push c' h').chars.length = (buf.push c h).chars.length := by
    show (buf'.chars ++ [c']).length = (buf.chars ++ [c]).length
    rw [List.length_append, List.length_append, hlen]
    rfl
  have hfits : buf'.chars.length < cap - 1 ↔ buf.chars.length < cap - 1 := by rw [hlen]
  rcases hkey with rfl | ⟨hc, hc'⟩
  · by_cases h1 : key' = 10 ∨ key' = 13
    · rw [inputKey, inputKey, if_pos h1, if_pos h1]
      exact .entered
    by_cases h2 : key' = 27
    · rw [inputKey, inputKey, if_neg h1, if_neg h1, if_pos h2, if_pos h2]
      exact .escaped
    by_cases h3 : key' = 8 ∧ buf.chars ≠ []
    · rw [inputKey, inputKey, if_neg h1, if_neg h1, if_neg h2, if_neg h2, if_pos h3, if_pos ⟨h3.1, hback.mpr h3.2⟩]
      refine .typing ?_
      show buf'.chars.dropLast.length = buf.chars.dropLast.length
      rw [List.length_dropLast, List.length_dropLast, hlen]
    have h3' : ¬ (key' = 8 ∧ buf'.chars ≠ []) := fun h => h3 ⟨h.1, hback.mp h.2⟩
    rw [inputKey, inputKey, if_neg h1, if_neg h1, if_neg h2, if_neg h2, if_neg h3, if_neg h3']
    by_cases h4 : isPrintable key'.toUInt8 = true ∧ buf.chars.length < cap - 1
    · have h4' : isPrintable key'.toUInt8 = true ∧ buf'.chars.length < cap - 1 := ⟨h4.1, hfits.mpr h4.2⟩
      rw [dif_pos h4, dif_pos h4']
      exact .typing (hpush h4 h4')
    · rw [dif_neg h4, dif_neg fun h => h4 ⟨h.1, hfits.mp h.2⟩]
      exact .typing hlen
  · obtain ⟨h1, h2, h3⟩ := printable_key hc
    obtain ⟨h1', h2', h3'⟩ := printable_key hc'
    rw [inputKey, inputKey, if_neg h1, if_neg h2, if_neg (not_and_of_not_left _ h3), if_neg h1', if_neg h2',
      if_neg (not_and_of_not_left _ h3')]
    by_cases hroom : buf.chars.length < cap - 1
    · rw [dif_pos ⟨hc, hroom⟩, dif_pos ⟨hc', hfits.mpr hroom⟩]
      exact .typing (hpush ⟨hc, hroom⟩ ⟨hc', hfits.mpr hroom⟩)
    · rw [dif_neg (not_and_of_not_right _ hroom), dif_neg (not_and_of_not_right _ fun h => hroom (hfits.mp h))]
      exact .typing hlen

theorem inputKey_entered {cap : Nat} {buf : InputBuffer cap} {key : Key} (h : inputKey buf key = .entered) :
    key = 10 ∨ key = 13 := by
  by_contra hnot
  rw [inputKey, if_neg hnot] at h
  split_ifs at h

/-! ### One page -/

theorem Surroundings.passwords {u u' : Ui} (h : Surroundings u u') :
    ∃ rootPw userPw : InputBuffer 64, rootPw.chars.length = u.ws.rootPw.chars.length ∧
      userPw.chars.length = u.ws.userPw.chars.length ∧
        u' = ⟨{u.ws with rootPw := rootPw, userPw := userPw}, u'.prompt, u.nodes, u.disk, u.screen⟩ := by
  obtain ⟨⟨rootPw, userPw, hroot, huser, hws⟩, hnodes, hdisk, hscreen⟩ := h
  refine ⟨rootPw, userPw, hroot, huser, ?_⟩
  rw [← hws, ← hnodes, ← hdisk, ← hscreen]

/-- The same passwords or not, the rest is taken over. -/
theorem Surroundings.intro (w : Wiz) (prompt prompt' : Prompt) (t : Nodes) (d : Disk) (v : Vga)
    {rootPw userPw : InputBuffer 64} (hroot : rootPw.chars.length = w.rootPw.chars.length)
    (huser : userPw.chars.length = w.userPw.chars.length) :
    Surroundings ⟨w, prompt, t, d, v⟩ ⟨{w with rootPw := rootPw, userPw := userPw}, prompt', t, d, v⟩ :=
  ⟨⟨rootPw, userPw, hroot, huser, rfl⟩, rfl, rfl, rfl⟩

theorem Surroundings.answers {u u' : Ui} (h : Surroundings u u') {w w' : Wiz} (hws : WizAlike w w') :
    Surroundings {u with ws := w} {u' with ws := w'} :=
  ⟨hws, h.nodes, h.disk, h.screen⟩

theorem WizAlike.withHostname {w w' : Wiz} (h : WizAlike w w') :
    WizAlike (withHostname w) (withHostname w') ∧
      (withHostname w').hostname.chars = (withHostname w).hostname.chars := by
  obtain ⟨rootPw, userPw, hroot, huser, rfl⟩ := h
  unfold Installer.withHostname
  dsimp only
  split_ifs
  · exact ⟨⟨rootPw, userPw, hroot, huser, rfl⟩, rfl⟩
  · exact ⟨⟨rootPw, userPw, hroot, huser, rfl⟩, rfl⟩

theorem WizAlike.withUsername {w w' : Wiz} (h : WizAlike w w') :
    WizAlike (withUsername w) (withUsername w') ∧
      (withUsername w').username.chars = (withUsername w).username.chars := by
  obtain ⟨rootPw, userPw, hroot, huser, rfl⟩ := h
  unfold Installer.withUsername
  dsimp only
  split_ifs
  · exact ⟨⟨rootPw, userPw, hroot, huser, rfl⟩, rfl⟩
  · exact ⟨⟨rootPw, userPw, hroot, huser, rfl⟩, rfl⟩

theorem together_ask {u u' : Ui} (h : Surroundings u u') {prompt prompt' : Prompt}
    (hprompt : PromptAlike prompt prompt') {draw draw' : Vga → Vga} (hdraw : draw' u.screen = draw u.screen) :
    Together Alike (.ok (u.ask prompt draw) : Except Fault Ui) (.ok (u'.ask prompt' draw')) := by
  have hscreen : draw' u'.screen = draw u.screen := by rw [h.screen, hdraw]
  exact .inl ⟨_, _, rfl, rfl, ⟨h.ws, h.nodes, h.disk, hscreen⟩, hprompt⟩

theorem sayPassword_alike (y : Int) {pw pw' : InputBuffer 64} (h : pw'.chars.length = pw.chars.length) (v : Vga) :
    sayPassword y pw' v = sayPassword y pw v := by
  have hset : pw'.chars ≠ [] ↔ pw.chars ≠ [] := by
    rw [← List.length_pos_iff_ne_nil, ← List.length_pos_iff_ne_nil, h]
  rw [sayPassword, sayPassword, if_congr hset rfl rfl]

/-- **The summary tells whether a password is set.** -/
theorem drawSummaryPage_alike {w : Wiz} {rootPw userPw : InputBuffer 64}
    (hroot : rootPw.chars.length = w.rootPw.chars.length) (huser : userPw.chars.length = w.userPw.chars.length)
    (di : Option Ata.AtaDeviceInfo) (v : Vga) :
    drawSummaryPage {w with rootPw := rootPw, userPw := userPw} di v = drawSummaryPage w di v := by
  unfold drawSummaryPage
  dsimp only
  rw [sayPassword_alike _ hroot, sayPassword_alike _ huser]

section Pages
variable (hw : Hardware) {u u' : Ui}

/-- **Nothing of a password is installed**, nor shown by an installation. -/
theorem install_alike (h : Surroundings u u') : Together Alike (u.install hw) (u'.install hw) := by
  obtain ⟨rootPw, userPw, hroot, huser, hu'⟩ := h.passwords
  generalize u'.prompt = prompt' at hu'
  subst hu'
  obtain ⟨w, prompt, t, d, v⟩ := u
  dsimp only at hroot huser
  have hdirs (t : Nodes) : installDirs {w with rootPw := rootPw, userPw := userPw} t = installDirs w t := rfl
  have hconfig (t : Nodes) : installConfig {w with rootPw := rootPw, userPw := userPw} t = installConfig w t := rfl
  have hsame (prompt : Prompt) (t : Nodes) (d : Disk) (v : Vga) :
      Together Alike (.ok ⟨w, prompt, t, d, v⟩ : Except Fault Ui)
        (.ok ⟨{w with rootPw := rootPw, userPw := userPw}, prompt, t, d, v⟩) :=
    .inl ⟨_, _, rfl, rfl, .intro w prompt prompt t d v hroot huser, .same _⟩
  unfold Ui.install
  dsimp only
  split_ifs
  · exact hsame _ _ _ _
  · exact hsame _ _ _ _
  · rw [hdirs]
    cases installDirs w (diskFormatFs (diskInstallSystem hw.l
      ((diskGetInfo hw.devices d.selectedDisk).map (·.sectors28)) d).2).2.1 with
    | error f => exact .inr ⟨f, f, rfl, rfl⟩
    | ok t₁ =>
      rw [Foundation.ok_bind, Foundation.ok_bind, hconfig]
      cases installConfig w t₁ with
      | error f => exact .inr ⟨f, f, rfl, rfl⟩
      | ok t₂ =>
        rw [Foundation.ok_bind, Foundation.ok_bind]
        split_ifs
        · exact hsame _ _ _ _
        · exact hsame _ _ _ _

theorem cancel_alike (h : Surroundings u u') : Together Alike (.ok u.cancel : Except Fault Ui) (.ok u'.cancel) :=
  together_ask h (.same _) rfl

theorem openPage_alike (h : Surroundings u u') (stage : Nat) :
    Together Alike (u.openPage hw stage) (u'.openPage hw stage) := by
  obtain ⟨rootPw, userPw, hroot, huser, hu'⟩ := h.passwords
  generalize u'.prompt = prompt' at hu'
  subst hu'
  obtain ⟨w, prompt, t, d, v⟩ := u
  dsimp only at hroot huser h
  obtain _ | _ | _ | _ | _ | _ | _ | stage := stage
  · exact together_ask h (.same _) rfl
  · unfold Ui.openPage
    dsimp only
    split_ifs with hcount
    · exact cancel_alike h
    · exact together_ask h (.same _) rfl
  · obtain ⟨hws, hname⟩ := h.ws.withHostname
    have hdraw (v : Vga) : drawInput 2 (contTop + 6) 40
        (withHostname {w with rootPw := rootPw, userPw := userPw}).hostname.chars false (drawHostnamePage v) =
          drawInput 2 (contTop + 6) 40 (withHostname w).hostname.chars false (drawHostnamePage v) := by
      rw [hname]
    exact together_ask (h.answers hws) (.same _) (hdraw v)
  · exact together_ask h (.same _) rfl
  · exact together_ask h (.same _) (drawInput_masked _ _ _ hroot _)
  · obtain ⟨hws, hname⟩ := h.ws.withUsername
    have hdraw (v : Vga) : drawInput 2 (contTop + 5) 30
        (withUsername {w with rootPw := rootPw, userPw := userPw}).username.chars false (drawUserPage v) =
          drawInput 2 (contTop + 5) 30 (withUsername w).username.chars false (drawUserPage v) := by
      rw [hname]
    exact together_ask (h.answers hws) (.same _) (hdraw v)
  · exact together_ask h (.same _) (congrArg _ (drawSummaryPage_alike hroot huser _ _))
  · exact install_alike hw h

theorem turn_alike (h : Surroundings u u') (stage : Nat) (result : Int) :
    Together Alike (u.turn hw stage result) (u'.turn hw stage result) := by
  unfold Ui.turn
  split_ifs
  · exact openPage_alike hw h _
  · exact openPage_alike hw h _
  · exact cancel_alike h

/-- A prompt that is not for a password. -/
theorem step_plain (h : Surroundings u u') (hprompt : u'.prompt = u.prompt) (hplain : u.prompt.masked = false)
    (key : Key) : Together Alike (u.step hw key) (u'.step hw key) := by
  obtain ⟨rootPw, userPw, hroot, huser, hu'⟩ := h.passwords
  rw [hprompt] at hu'
  subst hu'
  obtain ⟨w, prompt, t, d, v⟩ := u
  dsimp only at hroot huser h hplain
  have hws (w₂ : Wiz) (hrootPw : w₂.rootPw = w.rootPw) (huserPw : w₂.userPw = w.userPw) :
      WizAlike w₂ {w₂ with rootPw := rootPw, userPw := userPw} :=
    ⟨rootPw, userPw, hrootPw ▸ hroot, huserPw ▸ huser, rfl⟩
  have hstay : Together Alike (.ok ⟨w, prompt, t, d, v⟩ : Except Fault Ui)
      (.ok ⟨{w with rootPw := rootPw, userPw := userPw}, prompt, t, d, v⟩) :=
    .inl ⟨_, _, rfl, rfl, h, .same _⟩
  cases prompt with
  | rootPw => cases hplain
  | rootConfirm confirm => cases hplain
  | userPw => cases hplain
  | userConfirm confirm => cases hplain
  | welcome =>
    unfold Ui.step
    dsimp only
    split_ifs
    · exact turn_alike hw h _ _
    · exact turn_alike hw h _ _
    · exact hstay
  | disk cnt sel =>
    unfold Ui.step
    dsimp only
    cases menuKey sel key with
    | moved sel => exact together_ask h (.same _) rfl
    | cancelled => exact turn_alike hw h _ _
    | chosen =>
      have hselected (d : Disk) : Surroundings ⟨w, .disk cnt sel, t, d, v⟩
          ⟨{w with rootPw := rootPw, userPw := userPw}, .disk cnt sel, t, d, v⟩ :=
        .intro w _ _ t d v hroot huser
      dsimp only
      split_ifs
      · exact together_ask (hselected _) (.same _) rfl
      · exact turn_alike hw ((hselected _).answers (hws {w with diskIndex := sel.val} rfl rfl)) _ _
  | cannotSelect => exact turn_alike hw h _ _
  | hostname =>
    unfold Ui.step
    dsimp only
    cases inputKey w.hostname key with
    | typing buf => exact together_ask (h.answers (hws {w with hostname := buf} rfl rfl)) (.same _) rfl
    | escaped => exact turn_alike hw h _ _
    | entered => exact turn_alike hw (h.answers h.ws.withHostname.1) _ _
  | timezone sel =>
    unfold Ui.step
    dsimp only
    cases menuKey sel key with
    | moved sel => exact together_ask h (.same _) rfl
    | cancelled => exact turn_alike hw h _ _
    | chosen => exact turn_alike hw (h.answers (hws {w with timezone := tzones sel} rfl rfl)) _ _
  | rootMismatch =>
    have hcleared : WizAlike {w with rootPw := noPassword} {w with rootPw := noPassword, userPw := userPw} :=
      ⟨noPassword, userPw, rfl, huser, rfl⟩
    exact openPage_alike hw (h.answers hcleared) 4
  | username =>
    unfold Ui.step
    dsimp only
    cases inputKey w.username key with
    | typing buf => exact together_ask (h.answers (hws {w with username := buf} rfl rfl)) (.same _) rfl
    | escaped => exact turn_alike hw h _ _
    | entered =>
      exact together_ask (h.answers (hws {w with
        username := if w.username.chars.length < 2 then defaultUsername else w.username} rfl rfl)) (.same _)
          (drawInput_masked _ _ _ huser _)
  | userMismatch =>
    have hcleared : WizAlike {w with userPw := noPassword} {w with rootPw := rootPw, userPw := noPassword} :=
      ⟨rootPw, noPassword, hroot, rfl, rfl⟩
    exact openPage_alike hw (h.answers hcleared) 5
  | summary confirm =>
    unfold Ui.step
    dsimp only
    cases inputKey confirm key with
    | typing buf => exact together_ask h (.same _) rfl
    | escaped => exact turn_alike hw h _ _
    | entered =>
      dsimp only
      split_ifs
      · exact turn_alike hw h _ _
      · exact turn_alike hw h _ _
  | noDisk => exact together_ask h (.same _) rfl
  | failed => exact together_ask h (.same _) rfl
  | cancelled =>
    unfold Ui.step
    dsimp only
    split_ifs
    · exact together_ask h (.same _) rfl
    · exact hstay
  | complete => exact together_ask h (.same _) rfl
  | halted => exact hstay

/-- The first of two prompts for a password. -/
theorem step_password (h : Surroundings u u') {prompt : Prompt} (hp : u.prompt = prompt) (hp' : u'.prompt = prompt)
    (hmasked : prompt = .rootPw ∨ prompt = .userPw) {key key' : Key}
    (hkey : key' = key ∨ isPrintable key.toUInt8 = true ∧ isPrintable key'.toUInt8 = true) :
    Together Alike (u.step hw key) (u'.step hw key') := by
  obtain ⟨rootPw, userPw, hroot, huser, hu'⟩ := h.passwords
  rw [hp'] at hu'
  subst hu'
  obtain ⟨w, prompt, t, d, v⟩ := u
  dsimp only at hroot huser h hp
  subst hp
  rcases hmasked with rfl | rfl
  · have htyped := inputKey_alike hroot hkey
    unfold Ui.step
    dsimp only
    generalize inputKey w.rootPw key = x at htyped ⊢
    generalize inputKey rootPw key' = x' at htyped ⊢
    cases htyped with
    | @typing buf buf' hlen =>
      have hws : WizAlike {w with rootPw := buf} {w with rootPw := buf', userPw := userPw} :=
        ⟨buf', userPw, hlen, huser, rfl⟩
      exact together_ask (h.answers hws) (.same _) (drawInput_masked _ _ _ hlen _)
    | entered => exact together_ask h (.same _) rfl
    | escaped => exact turn_alike hw h _ _
  · have htyped := inputKey_alike huser hkey
    unfold Ui.step
    dsimp only
    generalize inputKey w.userPw key = x at htyped ⊢
    generalize inputKey userPw key' = x' at htyped ⊢
    cases htyped with
    | @typing buf buf' hlen =>
      have hws : WizAlike {w with userPw := buf} {w with rootPw := rootPw, userPw := buf'} :=
        ⟨rootPw, buf', hroot, hlen, rfl⟩
      exact together_ask (h.answers hws) (.same _) (drawInput_masked _ _ _ hlen _)
    | entered => exact together_ask h (.same _) rfl
    | escaped => exact turn_alike hw h _ _

/-- A confirmation: it is entered by the same key, and right or wrong in both. -/
theorem step_confirm (h : Surroundings u u') {confirm confirm' : InputBuffer 64}
    (hlen : confirm'.chars.length = confirm.chars.length)
    (hp : u.prompt = .rootConfirm confirm ∧ u'.prompt = .rootConfirm confirm' ∨
      u.prompt = .userConfirm confirm ∧ u'.prompt = .userConfirm confirm') {key key' : Key}
    (hkey : key' = key ∨ isPrintable key.toUInt8 = true ∧ isPrintable key'.toUInt8 = true)
    (hconfirmed : key = 10 ∨ key = 13 → u'.confirmed = u.confirmed) :
    Together Alike (u.step hw key) (u'.step hw key') := by
  have htyped := inputKey_alike hlen hkey
  obtain ⟨hp, hp'⟩ | ⟨hp, hp'⟩ := hp
  · have hright : key = 10 ∨ key = 13 →
        (u'.ws.rootPw.chars ≠ confirm'.chars ↔ u.ws.rootPw.chars ≠ confirm.chars) := by
      intro henter
      have := hconfirmed henter
      rw [Ui.confirmed, Ui.confirmed, hp, hp'] at this
      exact not_congr (decide_eq_decide.mp this)
    unfold Ui.step
    rw [hp, hp']
    dsimp only
    generalize hx : inputKey confirm key = x at htyped ⊢
    generalize inputKey confirm' key' = x' at htyped ⊢
    cases htyped with
    | typing hlen => exact together_ask h (.rootConfirm hlen) (drawInput_masked _ _ _ hlen _)
    | entered =>
      dsimp only
      rw [if_congr (hright (inputKey_entered hx)) rfl rfl]
      split_ifs
      · exact together_ask h (.same _) rfl
      · exact turn_alike hw h _ _
    | escaped => exact turn_alike hw h _ _
  · have hright : key = 10 ∨ key = 13 →
        (u'.ws.userPw.chars ≠ confirm'.chars ↔ u.ws.userPw.chars ≠ confirm.chars) := by
      intro henter
      have := hconfirmed henter
      rw [Ui.confirmed, Ui.confirmed, hp, hp'] at this
      exact not_congr (decide_eq_decide.mp this)
    unfold Ui.step
    rw [hp, hp']
    dsimp only
    generalize hx : inputKey confirm key = x at htyped ⊢
    generalize inputKey confirm' key' = x' at htyped ⊢
    cases htyped with
    | typing hlen => exact together_ask h (.userConfirm hlen) (drawInput_masked _ _ _ hlen _)
    | entered =>
      dsimp only
      rw [if_congr (hright (inputKey_entered hx)) rfl rfl]
      split_ifs
      · exact together_ask h (.same _) rfl
      · exact turn_alike hw h _ _
    | escaped => exact turn_alike hw h _ _

theorem step_alike (h : Alike u u') {key key' : Key} (hkeys : KeysAlike u u' key key') :
    Together Alike (u.step hw key) (u'.step hw key') := by
  obtain ⟨hs, hprompt⟩ := h
  obtain ⟨hkey, hconfirmed⟩ := hkeys
  have hkey' : key' = key ∨ isPrintable key.toUInt8 = true ∧ isPrintable key'.toUInt8 = true :=
    hkey.imp_right fun h => h.2
  generalize hp : u.prompt = prompt at hprompt hkey
  generalize hp' : u'.prompt = prompt' at hprompt
  cases hprompt with
  | rootConfirm hlen => exact step_confirm hw hs hlen (.inl ⟨hp, hp'⟩) hkey' hconfirmed
  | userConfirm hlen => exact step_confirm hw hs hlen (.inr ⟨hp, hp'⟩) hkey' hconfirmed
  | same =>
    cases hmasked : prompt.masked with
    | false =>
      rw [hmasked] at hkey
      obtain rfl : key' = key := hkey.resolve_right fun h => Bool.false_ne_true h.1
      exact step_plain hw hs (hp'.trans hp.symm) (hp ▸ hmasked) key'
    | true =>
      cases prompt with
      | rootPw => exact step_password hw hs hp hp' (.inl rfl) hkey'
      | userPw => exact step_password hw hs hp hp' (.inr rfl) hkey'
      | rootConfirm confirm => exact step_confirm hw hs rfl (.inl ⟨hp, hp'⟩) hkey' hconfirmed
      | userConfirm confirm => exact step_confirm hw hs rfl (.inr ⟨hp, hp'⟩) hkey' hconfirmed
      | _ => cases hmasked

end Pages

/-! ### Whole runs -/

theorem run_eq_stepsOf (hw : Hardware) (keys : List Key) (u : Ui) : u.run hw keys = stepsOf (Ui.step hw) keys u := by
  induction keys generalizing u with
  | nil => rfl
  | cons key keys ih =>
    have hrest : Ui.run hw keys = stepsOf (Ui.step hw) keys := funext ih
    show u.step hw key >>= Ui.run hw keys = u.step hw key >>= stepsOf (Ui.step hw) keys
    rw [hrest]

/-- **Nothing shows, and nothing is stored, of a password but its length**: where one run takes other characters for
its passwords than another does, the screens are the same at every key, and so are the table and the disk that are left;
and the one run ends where the other does. -/
theorem passwords_hidden (hw : Hardware) {u u' : Ui} (hu : Alike u u') {keys keys' : List Key}
    (hkeys : Paired (Ui.step hw) KeysAlike keys keys' u u') :
    seen (Ui.step hw) Ui.screen keys' u' = seen (Ui.step hw) Ui.screen keys u ∧
      Together Alike (u.run hw keys) (u'.run hw keys') := by
  rw [run_eq_stepsOf, run_eq_stepsOf]
  exact ⟨hkeys.seen_eq (fun h => h.screen) (fun h hkeys => step_alike hw h hkeys) hu,
    hkeys.together (fun h hkeys => step_alike hw h hkeys) hu⟩

/-- Asked for the root password. -/
def askedRootPw : Ui := ⟨initialWiz, .rootPw, fsInit, blankDisk, Vga.initial⟩

/-- `a` or `b`, and the same again. -/
theorem passwords_hidden_letter :
    seen (Ui.step oneDiskMachine) Ui.screen [0x62, 10, 0x62, 10] askedRootPw =
        seen (Ui.step oneDiskMachine) Ui.screen [0x61, 10, 0x61, 10] askedRootPw ∧
      Together Alike (askedRootPw.run oneDiskMachine [0x61, 10, 0x61, 10])
        (askedRootPw.run oneDiskMachine [0x62, 10, 0x62, 10]) := by
  refine passwords_hidden oneDiskMachine (.refl askedRootPw) ?_
  refine .cons ⟨.inr ⟨rfl, rfl, rfl⟩, fun _ => rfl⟩ fun t t' ht ht' => ?_
  obtain rfl := Except.ok.inj ht
  obtain rfl := Except.ok.inj ht'
  refine .cons ⟨.inl rfl, fun _ => rfl⟩ fun t t' ht ht' => ?_
  obtain rfl := Except.ok.inj ht
  obtain rfl := Except.ok.inj ht'
  refine .cons ⟨.inr ⟨rfl, rfl, rfl⟩, fun _ => rfl⟩ fun t t' ht ht' => ?_
  obtain rfl := Except.ok.inj ht
  obtain rfl := Except.ok.inj ht'
  exact .cons ⟨.inl rfl, fun _ => rfl⟩ fun _ _ _ _ => .nil

end FurOS.Installer
