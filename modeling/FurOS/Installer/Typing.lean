import FurOS.Installer.Installed
import FurOS.Installer.Keys
import FurOS.Screen.Viewport

/-! A run of pages is a run of keys.

Each loop of a page is followed key by key to the key that ends it (`runInput_typed`, `runMenu_typed`); so a page that
ends has been typed, and the wizard is then where the page's result leads (`Turns`). -/
namespace FurOS.Installer

/-! ### The wizard never faults -/

namespace Ui

theorem install_ok (hw : Hardware) (u : Ui) : ∃ u', u.install hw = .ok u' := by
  obtain ⟨t, place, htree, -⟩ := installTree_laid u.ws
  obtain ⟨t₁, hdirs, hconfig⟩ := Foundation.bind_eq_ok.mp htree
  unfold install
  dsimp only
  split
  · exact ⟨_, rfl⟩
  · have hformat := diskFormatFs_nodes
      (diskInstallSystem hw.l ((diskGetInfo hw.devices u.disk.selectedDisk).map (·.sectors28)) u.disk).2
    split
    · exact ⟨_, rfl⟩
    · rw [hformat, hdirs, Foundation.ok_bind, hconfig, Foundation.ok_bind]
      split
      · exact ⟨_, rfl⟩
      · exact ⟨_, rfl⟩

theorem openPage_ok (hw : Hardware) (stage : Nat) (u : Ui) : ∃ u', u.openPage hw stage = .ok u' := by
  unfold openPage
  split
  · exact ⟨_, rfl⟩
  · split
    · exact ⟨_, rfl⟩
    · exact ⟨_, rfl⟩
  · exact ⟨_, rfl⟩
  · exact ⟨_, rfl⟩
  · exact ⟨_, rfl⟩
  · exact ⟨_, rfl⟩
  · exact ⟨_, rfl⟩
  · exact install_ok hw u

theorem run_append (hw : Hardware) (keys keys' : List Key) (u : Ui) :
    u.run hw (keys ++ keys') = u.run hw keys >>= run hw keys' := by
  induction keys generalizing u with
  | nil => rfl
  | cons key keys ih =>
    rw [List.cons_append, run, run]
    cases u.step hw key with
    | error f => rfl
    | ok u' => exact ih u'

end Ui

/-! ### Loops -/

section Loops
variable (hw : Hardware)

/-- A prompt that keeps what is typed is left with a key that it does not take. -/
theorem runInput_typed {cap : Nat} (holds : InputBuffer cap → Ui → Prop)
    (hholds : ∀ {buf buf' : InputBuffer cap} {u : Ui} {key : Key}, holds buf u → inputKey buf key = .typing buf' →
      ∃ u', u.step hw key = .ok u' ∧ holds buf' u') {buf buf' : InputBuffer cap} {rc : Int} {keys rest : List Key}
    (h : runInput buf keys = some (rc, buf', rest)) {u : Ui} (hu : holds buf u) :
    ∃ used key u', keys = used ++ key :: rest ∧ u.run hw used = .ok u' ∧ holds buf' u' ∧
      (inputKey buf' key = .entered ∧ rc = 0 ∨ inputKey buf' key = .escaped ∧ rc = -1) := by
  induction keys generalizing buf u with
  | nil => cases h
  | cons key keys ih =>
    have hmore {next : InputBuffer cap} (hkey : inputKey buf key = .typing next)
        (hrest : runInput next keys = some (rc, buf', rest)) :
        ∃ used key' u', key :: keys = used ++ key' :: rest ∧ u.run hw used = .ok u' ∧ holds buf' u' ∧
          (inputKey buf' key' = .entered ∧ rc = 0 ∨ inputKey buf' key' = .escaped ∧ rc = -1) := by
      obtain ⟨u₁, hstep, hu₁⟩ := hholds hu hkey
      obtain ⟨used, key', u', rfl, hrun, hend⟩ := ih hrest hu₁
      refine ⟨key :: used, key', u', rfl, ?_, hend⟩
      rw [Ui.run, hstep]
      exact hrun
    rw [runInput] at h
    split_ifs at h with h1 h2 h3 h4
    · cases h
      exact ⟨[], key, u, rfl, rfl, hu, .inl ⟨if_pos h1, rfl⟩⟩
    · cases h
      exact ⟨[], key, u, rfl, rfl, hu, .inr ⟨by rw [inputKey, if_neg h1, if_pos h2], rfl⟩⟩
    · exact hmore (by rw [inputKey, if_neg h1, if_neg h2, if_pos h3]) h
    · exact hmore (by rw [inputKey, if_neg h1, if_neg h2, if_neg h3, dif_pos h4]) h
    · exact hmore (by rw [inputKey, if_neg h1, if_neg h2, if_neg h3, dif_neg h4]) h

/-- The same for a menu. -/
theorem runMenu_typed {count : Nat} (holds : Fin count → Ui → Prop)
    (hholds : ∀ {sel sel' : Fin count} {u : Ui} {key : Key}, holds sel u → menuKey sel key = .moved sel' →
      ∃ u', u.step hw key = .ok u' ∧ holds sel' u') {sel : Fin count} {o : Option (Fin count)} {keys rest : List Key}
    (h : runMenu sel keys = some (o, rest)) {u : Ui} (hu : holds sel u) :
    ∃ used key sel' u', keys = used ++ key :: rest ∧ u.run hw used = .ok u' ∧ holds sel' u' ∧
      (menuKey sel' key = .chosen ∧ o = some sel' ∨ menuKey sel' key = .cancelled ∧ o = none) := by
  induction keys generalizing sel u with
  | nil => cases h
  | cons key keys ih =>
    have hmore {next : Fin count} (hkey : menuKey sel key = .moved next) (hrest : runMenu next keys = some (o, rest)) :
        ∃ used key' sel' u', key :: keys = used ++ key' :: rest ∧ u.run hw used = .ok u' ∧ holds sel' u' ∧
          (menuKey sel' key' = .chosen ∧ o = some sel' ∨ menuKey sel' key' = .cancelled ∧ o = none) := by
      obtain ⟨u₁, hstep, hu₁⟩ := hholds hu hkey
      obtain ⟨used, key', sel', u', rfl, hrun, hend⟩ := ih hrest hu₁
      refine ⟨key :: used, key', sel', u', rfl, ?_, hend⟩
      rw [Ui.run, hstep]
      exact hrun
    rw [runMenu] at h
    split_ifs at h with h1 h2 h3 h4
    · exact hmore (by rw [menuKey, if_pos h1]) h
    · exact hmore (by rw [menuKey, if_neg h1, dif_pos h2]) h
    · cases h
      exact ⟨[], key, sel, u, rfl, rfl, hu, .inl ⟨by rw [menuKey, if_neg h1, dif_neg h2, if_pos h3], rfl⟩⟩
    · cases h
      exact ⟨[], key, sel, u, rfl, rfl, hu,
        .inr ⟨by rw [menuKey, if_neg h1, dif_neg h2, if_neg h3, if_pos h4], rfl⟩⟩
    · exact hmore (by rw [menuKey, if_neg h1, dif_neg h2, if_neg h3, if_neg h4]) h

end Loops

/-! ### Pages -/

/-- What a page leaves of the wizard, whatever its prompt and its screen are. -/
structure Behind (u : Ui) (w : Wiz) (t : Nodes) (d : Disk) : Prop where
  ws : u.ws = w
  nodes : u.nodes = t
  disk : u.disk = d

/-- These keys end the page as it is said. -/
def Turns (hw : Hardware) (stage : Nat) (u : Ui) (t : Nodes) (keys : List Key) (e : PageEnd) (d : Disk) : Prop :=
  ∃ used u', keys = used ++ e.keys ∧ Behind u' e.ws t d ∧ u.run hw used = u'.turn hw stage e.result

section Pages
variable {hw : Hardware} {u : Ui} {w : Wiz} {t : Nodes} {d d' : Disk} {keys : List Key} {e : PageEnd}

/-- The last key of a page, after others that it has taken. -/
theorem turns_of_last {stage : Nat} {used : List Key} {key : Key} {u₁ u' : Ui} (hkeys : keys = used ++ key :: e.keys)
    (hrun : u.run hw used = .ok u₁) (hstep : u₁.step hw key = u'.turn hw stage e.result) (hbehind : Behind u' e.ws t d) :
    Turns hw stage u t keys e d := by
  refine ⟨used ++ [key], u', by rw [List.append_assoc]; exact hkeys, hbehind, ?_⟩
  rw [Ui.run_append, hrun, Foundation.ok_bind, Ui.run, hstep]
  obtain ⟨u₂, hturn⟩ : ∃ u₂, u'.turn hw stage e.result = .ok u₂ := by
    unfold Ui.turn
    split
    · exact Ui.openPage_ok hw _ _
    split
    · exact Ui.openPage_ok hw _ _
    · exact ⟨_, rfl⟩
  rw [hturn]
  rfl

theorem stageWelcome_turns (h : stageWelcome d.diskCount w keys = some e) (hu : Behind u w t d)
    (hprompt : u.prompt = .welcome) : Turns hw 0 u t keys e d := by
  obtain ⟨rfl, rfl, rfl⟩ := hu
  induction keys with
  | nil => cases h
  | cons key keys ih =>
    have hstep : u.step hw key =
        if (key = 10 ∨ key = 13) ∧ u.disk.diskCount > 0 then u.turn hw 0 1
        else if key = 0x71 ∨ key = 0x51 ∨ key = 27 then u.turn hw 0 (-1) else .ok u := by
      unfold Ui.step
      rw [hprompt]
    rw [stageWelcome] at h
    split_ifs at h with h1 h2
    · cases h
      exact turns_of_last (List.nil_append _).symm rfl (hstep.trans (if_pos h1)) ⟨rfl, rfl, rfl⟩
    · cases h
      rw [if_neg h1, if_pos h2] at hstep
      exact turns_of_last (List.nil_append _).symm rfl hstep ⟨rfl, rfl, rfl⟩
    · rw [if_neg h1, if_neg h2] at hstep
      obtain ⟨used, u', hkeys, hbehind, hrun⟩ := ih h
      refine ⟨key :: used, u', congrArg (key :: ·) hkeys, hbehind, ?_⟩
      rw [Ui.run, hstep]
      exact hrun

theorem stageHostname_turns (h : stageHostname w keys = some e) (hu : Behind u (withHostname w) t d)
    (hprompt : u.prompt = .hostname) : Turns hw 2 u t keys e d := by
  unfold stageHostname at h
  dsimp only at h
  cases hinput : runInput (withHostname w).hostname keys with
  | none =>
    rw [hinput] at h
    cases h
  | some end_ =>
    obtain ⟨rc, hostname, rest⟩ := end_
    rw [hinput] at h
    dsimp only at h
    obtain ⟨used, key, u₁, rfl, hrun, ⟨hprompt₁, hws, hnodes, hdisk⟩, hlast⟩ := runInput_typed hw
      (fun buf u => u.prompt = .hostname ∧ Behind u {withHostname w with hostname := buf} t d)
      (fun {buf buf' u key} hu hkey => by
        obtain ⟨hprompt, hws, hnodes, hdisk⟩ := hu
        unfold Ui.step
        rw [hprompt]
        dsimp only
        rw [hws, hkey]
        exact ⟨_, rfl, rfl, rfl, hnodes, hdisk⟩)
      hinput ⟨hprompt, hu⟩
    have hbuf : u₁.ws.hostname = hostname := by rw [hws]
    rcases hlast with ⟨hkey, rfl⟩ | ⟨hkey, rfl⟩
    · have hstep : u₁.step hw key = {u₁ with ws := withHostname u₁.ws}.turn hw 2 1 := by
        unfold Ui.step
        rw [hprompt₁]
        dsimp only
        rw [hbuf, hkey]
      have hleft : withHostname u₁.ws = e.ws ∧ e.result = 1 ∧ e.keys = rest := by
        rw [hws]
        rw [if_neg (by decide)] at h
        split_ifs at h with hempty
        · cases h
          exact ⟨if_pos hempty, rfl, rfl⟩
        · cases h
          exact ⟨if_neg hempty, rfl, rfl⟩
      obtain ⟨hwse, hresult, rfl⟩ := hleft
      rw [← hresult] at hstep
      exact turns_of_last rfl hrun hstep ⟨hwse, hnodes, hdisk⟩
    · have hstep : u₁.step hw key = u₁.turn hw 2 0 := by
        unfold Ui.step
        rw [hprompt₁]
        dsimp only
        rw [hbuf, hkey]
      rw [if_pos (by decide)] at h
      cases h
      exact turns_of_last rfl hrun hstep ⟨hws, hnodes, hdisk⟩

theorem stageTimezone_turns (h : stageTimezone w keys = some e) (hu : Behind u w t d)
    (hprompt : u.prompt = .timezone (timezoneMenuStart w)) : Turns hw 3 u t keys e d := by
  unfold stageTimezone at h
  cases hmenu : runMenu (timezoneMenuStart w) keys with
  | none =>
    rw [hmenu] at h
    cases h
  | some end_ =>
    obtain ⟨o, rest⟩ := end_
    rw [hmenu] at h
    obtain ⟨used, key, sel, u₁, rfl, hrun, ⟨hprompt₁, hws, hnodes, hdisk⟩, hlast⟩ := runMenu_typed hw
      (fun sel u => u.prompt = .timezone sel ∧ Behind u w t d)
      (fun {sel sel' u key} hu hkey => by
        obtain ⟨hprompt, hbehind⟩ := hu
        unfold Ui.step
        rw [hprompt]
        dsimp only
        rw [hkey]
        exact ⟨_, rfl, rfl, hbehind.ws, hbehind.nodes, hbehind.disk⟩)
      hmenu ⟨hprompt, hu⟩
    rcases hlast with ⟨hkey, rfl⟩ | ⟨hkey, rfl⟩
    · have hstep : u₁.step hw key = {u₁ with ws := {u₁.ws with timezone := tzones sel}}.turn hw 3 1 := by
        unfold Ui.step
        rw [hprompt₁]
        dsimp only
        rw [hkey]
      cases h
      exact turns_of_last rfl hrun hstep ⟨by rw [← hws], hnodes, hdisk⟩
    · have hstep : u₁.step hw key = u₁.turn hw 3 0 := by
        unfold Ui.step
        rw [hprompt₁]
        dsimp only
        rw [hkey]
      cases h
      exact turns_of_last rfl hrun hstep ⟨hws, hnodes, hdisk⟩

theorem diskCount_pos {d : Disk} (h : ¬ (d.diskCount ≤ 0 ∨ d.diskCount > 16)) : 0 < d.diskCount.toNat := by omega

theorem stageDisk_turns (h : stageDisk hw.devices w d keys = some (e, d'))
    (hcnt : ¬ (d.diskCount ≤ 0 ∨ d.diskCount > 16))
    (hu : Behind u w t d)
    (hprompt : u.prompt = .disk d.diskCount.toNat (diskMenuStart w d.diskCount.toNat (diskCount_pos hcnt))) :
    Turns hw 1 u t keys e d' := by
  unfold stageDisk at h
  rw [dif_neg hcnt] at h
  cases hmenu : runMenu (diskMenuStart w d.diskCount.toNat (by omega)) keys with
  | none =>
    rw [hmenu] at h
    cases h
  | some end_ =>
    obtain ⟨o, rest⟩ := end_
    rw [hmenu] at h
    obtain ⟨used, key, sel, u₁, rfl, hrun, ⟨hprompt₁, hws, hnodes, hdisk⟩, hlast⟩ := runMenu_typed hw
      (fun sel u => u.prompt = .disk d.diskCount.toNat sel ∧ Behind u w t d)
      (fun {sel sel' u key} hu hkey => by
        obtain ⟨hprompt, hbehind⟩ := hu
        unfold Ui.step
        rw [hprompt]
        dsimp only
        rw [hkey]
        exact ⟨_, rfl, rfl, hbehind.ws, hbehind.nodes, hbehind.disk⟩)
      hmenu ⟨hprompt, hu⟩
    rcases hlast with ⟨hkey, rfl⟩ | ⟨hkey, rfl⟩
    · dsimp only at h
      by_cases hstatus : (diskSelect hw.devices sel.val d).1 = 0
      · have hstep : u₁.step hw key =
            {u₁ with
              disk := (diskSelect hw.devices sel.val d).2
              ws := {u₁.ws with diskIndex := sel.val}}.turn hw 1 1 := by
          unfold Ui.step
          rw [hprompt₁]
          dsimp only
          rw [hkey, hdisk]
          exact if_neg (not_not.mpr hstatus)
        rw [if_neg (not_not.mpr hstatus)] at h
        cases h
        exact turns_of_last rfl hrun hstep ⟨by rw [← hws], hnodes, rfl⟩
      · obtain ⟨u₂, hstep, hlast, hbehind⟩ : ∃ u₂, u₁.step hw key = .ok u₂ ∧
            (∀ any, u₂.step hw any = u₂.turn hw 1 0) ∧ Behind u₂ w t (diskSelect hw.devices sel.val d).2 := by
          refine ⟨{u₁ with disk := (diskSelect hw.devices sel.val d).2}.ask .cannotSelect
            (sayAt 2 (contTop + 3 + d.diskCount.toNat + 3) (lit "Cannot select disk! Press any key.") Vga.lightRed),
            ?_, fun any => rfl, hws, hnodes, rfl⟩
          unfold Ui.step
          rw [hprompt₁]
          dsimp only
          rw [hkey, hdisk]
          exact if_pos hstatus
        rw [if_pos hstatus] at h
        cases rest with
        | nil => cases h
        | cons any rest =>
          cases h
          have hrun₂ : u.run hw (used ++ [key]) = .ok u₂ := by
            rw [Ui.run_append, hrun, Foundation.ok_bind, Ui.run, hstep]
            rfl
          exact turns_of_last (by rw [List.append_assoc]; rfl) hrun₂ (hlast any) hbehind
    · have hstep : u₁.step hw key = u₁.turn hw 1 0 := by
        unfold Ui.step
        rw [hprompt₁]
        dsimp only
        rw [hkey]
      cases h
      exact turns_of_last rfl hrun hstep ⟨hws, hnodes, hdisk⟩

theorem stageSummary_turns (h : stageSummary w keys = some e) (hu : Behind u w t d)
    (hprompt : u.prompt = .summary Ui.confirmation) : Turns hw 6 u t keys e d := by
  unfold stageSummary at h
  cases hinput : runInput (⟨[], by decide, List.forall_mem_nil _⟩ : InputBuffer 8) keys with
  | none =>
    rw [hinput] at h
    cases h
  | some end_ =>
    obtain ⟨rc, confirm, rest⟩ := end_
    rw [hinput] at h
    dsimp only at h
    obtain ⟨used, key, u₁, rfl, hrun, ⟨hprompt₁, hbehind⟩, hlast⟩ := runInput_typed hw
      (fun buf u => u.prompt = .summary buf ∧ Behind u w t d)
      (fun {buf buf' u key} hu hkey => by
        obtain ⟨hprompt, hbehind⟩ := hu
        unfold Ui.step
        rw [hprompt]
        dsimp only
        rw [hkey]
        exact ⟨_, rfl, rfl, hbehind.ws, hbehind.nodes, hbehind.disk⟩)
      hinput ⟨hprompt, hu⟩
    rcases hlast with ⟨hkey, rfl⟩ | ⟨hkey, rfl⟩
    · have hstep : u₁.step hw key =
          if confirm.chars ≠ lit "YES" ∧ confirm.chars ≠ lit "yes" then u₁.turn hw 6 0 else u₁.turn hw 6 1 := by
        unfold Ui.step
        rw [hprompt₁]
        dsimp only
        rw [hkey]
      rw [if_neg (by decide)] at h
      split_ifs at h hstep
      · cases h
        exact turns_of_last rfl hrun hstep hbehind
      · cases h
        exact turns_of_last rfl hrun hstep hbehind
    · have hstep : u₁.step hw key = u₁.turn hw 6 0 := by
        unfold Ui.step
        rw [hprompt₁]
        dsimp only
        rw [hkey]
      rw [if_pos (by decide)] at h
      cases h
      exact turns_of_last rfl hrun hstep hbehind

end Pages

/-! ### Passwords -/

/-- The prompt `P` confirms the password `pw`, which is cleared where the confirmation differs. -/
structure Confirming (hw : Hardware) (stage : Nat) (P : InputBuffer 64 → Prompt) (pw : Wiz → InputBuffer 64)
    (clear : Wiz → Wiz) : Prop where
  typing {u : Ui} {buf buf' : InputBuffer 64} {key : Key} : u.prompt = P buf → inputKey buf key = .typing buf' →
    ∃ u', u.step hw key = .ok u' ∧ u'.prompt = P buf' ∧ Behind u' u.ws u.nodes u.disk
  escaped {u : Ui} {buf : InputBuffer 64} {key : Key} : u.prompt = P buf → inputKey buf key = .escaped →
    u.step hw key = u.turn hw stage 0
  same {u : Ui} {buf : InputBuffer 64} {key : Key} : u.prompt = P buf → inputKey buf key = .entered →
    (pw u.ws).chars = buf.chars → u.step hw key = u.turn hw stage 1
  different {u : Ui} {buf : InputBuffer 64} {key : Key} : u.prompt = P buf → inputKey buf key = .entered →
    (pw u.ws).chars ≠ buf.chars → ∃ u', u.step hw key = .ok u' ∧
      ∀ any, ∃ u₁, u'.step hw any = u₁.openPage hw stage ∧ Behind u₁ (clear u.ws) u.nodes u.disk

theorem rootConfirming (hw : Hardware) :
    Confirming hw 4 .rootConfirm Wiz.rootPw fun w => {w with rootPw := noPassword} where
  typing hprompt hkey := by
    unfold Ui.step
    rw [hprompt]
    dsimp only
    rw [hkey]
    exact ⟨_, rfl, rfl, rfl, rfl, rfl⟩
  escaped hprompt hkey := by
    unfold Ui.step
    rw [hprompt]
    dsimp only
    rw [hkey]
  same hprompt hkey hsame := by
    unfold Ui.step
    rw [hprompt]
    dsimp only
    rw [hkey]
    exact if_neg (not_not.mpr hsame)
  different {u _ _} hprompt hkey hne := by
    refine ⟨u.ask .rootMismatch (drawMismatch (contTop + 11)), ?_, fun any => ⟨_, rfl, rfl, rfl, rfl⟩⟩
    unfold Ui.step
    rw [hprompt]
    dsimp only
    rw [hkey]
    exact if_pos hne

theorem userConfirming (hw : Hardware) :
    Confirming hw 5 .userConfirm Wiz.userPw fun w => {w with userPw := noPassword} where
  typing hprompt hkey := by
    unfold Ui.step
    rw [hprompt]
    dsimp only
    rw [hkey]
    exact ⟨_, rfl, rfl, rfl, rfl, rfl⟩
  escaped hprompt hkey := by
    unfold Ui.step
    rw [hprompt]
    dsimp only
    rw [hkey]
  same hprompt hkey hsame := by
    unfold Ui.step
    rw [hprompt]
    dsimp only
    rw [hkey]
    exact if_neg (not_not.mpr hsame)
  different {u _ _} hprompt hkey hne := by
    refine ⟨u.ask .userMismatch (drawMismatch (contTop + 15)), ?_, fun any => ⟨_, rfl, rfl, rfl, rfl⟩⟩
    unfold Ui.step
    rw [hprompt]
    dsimp only
    rw [hkey]
    exact if_pos hne

/-- How one pass over a page with a password ends: with a result, or the page is opened again. -/
def Passes (hw : Hardware) (stage : Nat) (u : Ui) (t : Nodes) (d : Disk) (keys : List Key) {before : List Key} :
    Pass before → Prop
  | .done e => Turns hw stage u t keys e d
  | .again w rest _ => ∃ used u₁, keys = used ++ rest ∧ Behind u₁ w t d ∧ u.run hw used = u₁.openPage hw stage

section Passwords
variable {hw : Hardware} {u : Ui} {w : Wiz} {t : Nodes} {d : Disk} {keys before : List Key}

theorem confirmPassword_passes {stage : Nat} {P : InputBuffer 64 → Prompt} {pw : Wiz → InputBuffer 64}
    {clear : Wiz → Wiz} (hP : Confirming hw stage P pw clear) {hkeys : keys.length < before.length} {p : Pass before}
    (h : confirmPassword w (pw w) (clear w) keys hkeys = some p) (hu : Behind u w t d)
    (hprompt : u.prompt = P noPassword) : Passes hw stage u t d keys p := by
  unfold confirmPassword at h
  split at h
  · cases h
  · rename_i rc confirm rest hinput
    obtain ⟨used, key, u₁, rfl, hrun, ⟨hprompt₁, hbehind⟩, hlast⟩ := runInput_typed hw
      (fun buf u => u.prompt = P buf ∧ Behind u w t d)
      (fun hu hkey => by
        obtain ⟨hprompt, rfl, rfl, rfl⟩ := hu
        obtain ⟨u', hstep, hprompt', hbehind'⟩ := hP.typing hprompt hkey
        exact ⟨u', hstep, hprompt', hbehind'⟩)
      hinput ⟨hprompt, hu⟩
    obtain ⟨rfl, rfl, rfl⟩ := hbehind
    rcases hlast with ⟨hkey, rfl⟩ | ⟨hkey, rfl⟩
    · rw [if_neg (by decide)] at h
      by_cases hsame : (pw u₁.ws).chars = confirm.chars
      · rw [if_neg (not_not.mpr hsame)] at h
        cases h
        exact turns_of_last rfl hrun (hP.same hprompt₁ hkey hsame) ⟨rfl, rfl, rfl⟩
      · obtain ⟨u₂, hstep, hany⟩ := hP.different hprompt₁ hkey hsame
        rw [if_pos hsame] at h
        split at h
        · cases h
        · rename_i any rest _ _ _ _
          cases h
          obtain ⟨u₃, hopen, hbehind⟩ := hany any
          refine ⟨used ++ [key, any], u₃, by rw [List.append_assoc]; rfl, hbehind, ?_⟩
          obtain ⟨u₄, hu₄⟩ := Ui.openPage_ok hw stage u₃
          rw [Ui.run_append, hrun, Foundation.ok_bind, Ui.run, hstep, Foundation.ok_bind, Ui.run, hopen, hu₄]
          rfl
    · rw [if_pos (by decide)] at h
      cases h
      exact turns_of_last rfl hrun (hP.escaped hprompt₁ hkey) ⟨rfl, rfl, rfl⟩

/-- A pass that goes on where others have led. -/
theorem Passes.after {stage : Nat} {used : List Key} {u₁ : Ui} {p : Pass before} (hrun : u.run hw used = .ok u₁)
    (h : Passes hw stage u₁ t d keys p) : Passes hw stage u t d (used ++ keys) p := by
  cases p with
  | done e =>
    obtain ⟨more, u', rfl, hbehind, hmore⟩ := h
    exact ⟨used ++ more, u', (List.append_assoc _ _ _).symm, hbehind, by
      rw [Ui.run_append, hrun, Foundation.ok_bind, hmore]⟩
  | again w rest hrest =>
    obtain ⟨more, u', rfl, hbehind, hmore⟩ := h
    exact ⟨used ++ more, u', (List.append_assoc _ _ _).symm, hbehind, by
      rw [Ui.run_append, hrun, Foundation.ok_bind, hmore]⟩

theorem rootPwPass_passes {p : Pass keys} (h : rootPwPass w keys = some p) (hu : Behind u w t d)
    (hprompt : u.prompt = .rootPw) : Passes hw 4 u t d keys p := by
  unfold rootPwPass at h
  split at h
  · cases h
  · rename_i rc rootPw rest hinput
    obtain ⟨used, key, u₁, hkeys, hrun, ⟨hprompt₁, hws, hnodes, hdisk⟩, hlast⟩ := runInput_typed hw
      (fun buf u => u.prompt = .rootPw ∧ Behind u {w with rootPw := buf} t d)
      (fun {buf buf' u key} hu hkey => by
        obtain ⟨hprompt, hws, hnodes, hdisk⟩ := hu
        unfold Ui.step
        rw [hprompt]
        dsimp only
        rw [hws, hkey]
        exact ⟨_, rfl, rfl, rfl, hnodes, hdisk⟩)
      hinput ⟨hprompt, hu⟩
    have hbuf : u₁.ws.rootPw = rootPw := by rw [hws]
    rcases hlast with ⟨hkey, rfl⟩ | ⟨hkey, rfl⟩
    · have hstep : u₁.step hw key = .ok (u₁.ask (.rootConfirm noPassword) (drawInput 2 (contTop + 9) 44 [] true)) := by
        unfold Ui.step
        rw [hprompt₁]
        dsimp only
        rw [hbuf, hkey]
      have hrun₂ : u.run hw (used ++ [key]) =
          .ok (u₁.ask (.rootConfirm noPassword) (drawInput 2 (contTop + 9) 44 [] true)) := by
        rw [Ui.run_append, hrun, Foundation.ok_bind, Ui.run, hstep]
        rfl
      rw [if_neg (by decide)] at h
      have hconfirm := confirmPassword_passes (rootConfirming hw) h
        (u := u₁.ask (.rootConfirm noPassword) (drawInput 2 (contTop + 9) 44 [] true)) ⟨hws, hnodes, hdisk⟩ rfl
      have hpass := Passes.after hrun₂ hconfirm
      rwa [List.append_assoc, List.singleton_append, ← hkeys] at hpass
    · have hstep : u₁.step hw key = u₁.turn hw 4 0 := by
        unfold Ui.step
        rw [hprompt₁]
        dsimp only
        rw [hbuf, hkey]
      rw [if_pos (by decide)] at h
      cases h
      exact turns_of_last hkeys hrun hstep ⟨hws, hnodes, hdisk⟩

/-- Taking a user's password, from its prompt on. -/
theorem userPwPass_passes {hkeys : keys.length < before.length} {p : Pass before}
    (h : userPwPass w keys hkeys = some p) (hu : Behind u w t d) (hprompt : u.prompt = .userPw) :
    Passes hw 5 u t d keys p := by
  unfold userPwPass at h
  split at h
  · cases h
  · rename_i rc userPw rest hinput
    obtain ⟨used, key, u₁, rfl, hrun, ⟨hprompt₁, hws, hnodes, hdisk⟩, hlast⟩ := runInput_typed hw
      (fun buf u => u.prompt = .userPw ∧ Behind u {w with userPw := buf} t d)
      (fun {buf buf' u key} hu hkey => by
        obtain ⟨hprompt, hws, hnodes, hdisk⟩ := hu
        unfold Ui.step
        rw [hprompt]
        dsimp only
        rw [hws, hkey]
        exact ⟨_, rfl, rfl, rfl, hnodes, hdisk⟩)
      hinput ⟨hprompt, hu⟩
    have hbuf : u₁.ws.userPw = userPw := by rw [hws]
    rcases hlast with ⟨hkey, rfl⟩ | ⟨hkey, rfl⟩
    · have hstep : u₁.step hw key = .ok (u₁.ask (.userConfirm noPassword) (drawInput 2 (contTop + 13) 44 [] true)) := by
        unfold Ui.step
        rw [hprompt₁]
        dsimp only
        rw [hbuf, hkey]
      have hrun₂ : u.run hw (used ++ [key]) =
          .ok (u₁.ask (.userConfirm noPassword) (drawInput 2 (contTop + 13) 44 [] true)) := by
        rw [Ui.run_append, hrun, Foundation.ok_bind, Ui.run, hstep]
        rfl
      rw [if_neg (by decide)] at h
      have hconfirm := confirmPassword_passes (userConfirming hw) h
        (u := u₁.ask (.userConfirm noPassword) (drawInput 2 (contTop + 13) 44 [] true)) ⟨hws, hnodes, hdisk⟩ rfl
      have hpass := Passes.after hrun₂ hconfirm
      rwa [List.append_assoc, List.singleton_append] at hpass
    · have hstep : u₁.step hw key = u₁.turn hw 5 0 := by
        unfold Ui.step
        rw [hprompt₁]
        dsimp only
        rw [hbuf, hkey]
      rw [if_pos (by decide)] at h
      cases h
      exact turns_of_last rfl hrun hstep ⟨hws, hnodes, hdisk⟩

theorem userPass_passes {p : Pass keys} (h : userPass w keys = some p) (hu : Behind u (withUsername w) t d)
    (hprompt : u.prompt = .username) : Passes hw 5 u t d keys p := by
  unfold userPass at h
  dsimp only at h
  split at h
  · cases h
  · rename_i rc username rest hinput
    obtain ⟨used, key, u₁, hkeys, hrun, ⟨hprompt₁, hws, hnodes, hdisk⟩, hlast⟩ := runInput_typed hw
      (fun buf u => u.prompt = .username ∧ Behind u {withUsername w with username := buf} t d)
      (fun {buf buf' u key} hu hkey => by
        obtain ⟨hprompt, hws, hnodes, hdisk⟩ := hu
        unfold Ui.step
        rw [hprompt]
        dsimp only
        rw [hws, hkey]
        exact ⟨_, rfl, rfl, rfl, hnodes, hdisk⟩)
      hinput ⟨hprompt, hu⟩
    have hbuf : u₁.ws.username = username := by rw [hws]
    rcases hlast with ⟨hkey, rfl⟩ | ⟨hkey, rfl⟩
    · obtain ⟨u₂, hstep, hprompt₂, hws₂, hnodes₂, hdisk₂⟩ : ∃ u₂, u₁.step hw key = .ok u₂ ∧ u₂.prompt = .userPw ∧
          Behind u₂ {withUsername w with
            username := if username.chars.length < 2 then defaultUsername else username} t d := by
        refine ⟨{u₁ with
          ws := {u₁.ws with
            username := if username.chars.length < 2 then defaultUsername else username}}.ask .userPw
          (drawInput 2 (contTop + 9) 44 u₁.ws.userPw.chars true), ?_, rfl, ?_, hnodes, hdisk⟩
        · unfold Ui.step
          rw [hprompt₁]
          dsimp only
          rw [hbuf, hkey]
        · dsimp only [Ui.ask]
          rw [hws]
      have hrun₂ : u.run hw (used ++ [key]) = .ok u₂ := by
        rw [Ui.run_append, hrun, Foundation.ok_bind, Ui.run, hstep]
        rfl
      have hpass : Passes hw 5 u₂ t d rest p := by
        rw [if_neg (by decide)] at h
        split at h
        · rename_i hshort
          rw [if_pos hshort] at hws₂
          exact userPwPass_passes h ⟨hws₂, hnodes₂, hdisk₂⟩ hprompt₂
        · rename_i hlong
          rw [if_neg hlong] at hws₂
          exact userPwPass_passes h ⟨hws₂, hnodes₂, hdisk₂⟩ hprompt₂
      have hafter := Passes.after hrun₂ hpass
      rwa [List.append_assoc, List.singleton_append, ← hkeys] at hafter
    · have hstep : u₁.step hw key = u₁.turn hw 5 0 := by
        unfold Ui.step
        rw [hprompt₁]
        dsimp only
        rw [hbuf, hkey]
      rw [if_pos (by decide)] at h
      cases h
      exact turns_of_last hkeys hrun hstep ⟨hws, hnodes, hdisk⟩

/-- Passes over a page, until one ends. -/
theorem retrying_turns {stage : Nat} {pass : Wiz → (keys : List Key) → Option (Pass keys)}
    (hpass : ∀ {w keys} {p : Pass keys} {u₀ u : Ui}, pass w keys = some p → Behind u₀ w t d →
      u₀.openPage hw stage = .ok u → Passes hw stage u t d keys p) {e : PageEnd}
    (h : retrying pass w keys = some e) {u₀ : Ui} (hu : Behind u₀ w t d) (hopen : u₀.openPage hw stage = .ok u) :
    Turns hw stage u t keys e d := by
  induction w, keys using retrying.induct pass generalizing u₀ u with
  | case1 w keys hnone =>
    rw [retrying, hnone] at h
    cases h
  | case2 w keys e' hdone =>
    rw [retrying, hdone] at h
    cases h
    exact hpass hdone hu hopen
  | case3 w keys w' rest hrest hagain ih =>
    rw [retrying, hagain] at h
    obtain ⟨used, u₁, rfl, hbehind, hrun⟩ := hpass hagain hu hopen
    obtain ⟨u₂, hu₂⟩ := Ui.openPage_ok hw stage u₁
    obtain ⟨more, u', rfl, hbehind', hmore⟩ := ih h hbehind hu₂
    refine ⟨used ++ more, u', (List.append_assoc _ _ _).symm, hbehind', ?_⟩
    rw [Ui.run_append, hrun, hu₂, Foundation.ok_bind, hmore]

end Passwords

/-! ### Runs -/

section Runs
variable {hw : Hardware} {u₀ u : Ui}

/-- How an installation ends is shown. -/
theorem install_shown (hw : Hardware) (u₀ : Ui) : ∃ u, u₀.install hw = .ok u ∧
    ((∃ t d, stageInstall hw.l hw.devices u₀.ws u₀.disk = .ok (t, d) ∧ u.prompt = .complete ∧ Behind u u₀.ws t d) ∨
      ∃ k d, stageInstall hw.l hw.devices u₀.ws u₀.disk = .error (.failed k d) ∧ u.prompt = .failed ∧ u.disk = d) := by
  obtain ⟨t, place, htree, -⟩ := installTree_laid u₀.ws
  obtain ⟨t₁, hdirs, hconfig⟩ := Foundation.bind_eq_ok.mp htree
  unfold Ui.install stageInstall
  dsimp only
  split
  · exact ⟨_, rfl, .inr ⟨_, _, rfl, rfl, rfl⟩⟩
  · have hformat := diskFormatFs_nodes
      (diskInstallSystem hw.l ((diskGetInfo hw.devices u₀.disk.selectedDisk).map (·.sectors28)) u₀.disk).2
    split
    · exact ⟨_, rfl, .inr ⟨_, _, rfl, rfl, rfl⟩⟩
    · rw [hformat, hdirs, Foundation.ok_bind, hconfig, Foundation.ok_bind, htree]
      dsimp only
      split
      · exact ⟨_, rfl, .inr ⟨_, _, rfl, rfl, rfl⟩⟩
      · exact ⟨_, rfl, .inl ⟨_, _, rfl, rfl, rfl, rfl, rfl⟩⟩

/-- A page of the wizard, as it is waited for. -/
def Shows (hw : Hardware) (s : State) (u : Ui) : Prop :=
  s.stage ≤ 7 ∧ (∃ u₀, Behind u₀ s.ws s.nodes s.disk ∧ u₀.openPage hw s.stage = .ok u) ∨
    s.stage = 8 ∧ u.prompt = .complete ∧ Behind u s.ws s.nodes s.disk

theorem stageDisk_opened {w : Wiz} {t : Nodes} {d d' : Disk} {keys : List Key} {e : PageEnd}
    (h : stageDisk hw.devices w d keys = some (e, d')) (hu : Behind u₀ w t d) (hopen : u₀.openPage hw 1 = .ok u) :
    Turns hw 1 u t keys e d' := by
  obtain ⟨rfl, rfl, rfl⟩ := hu
  by_cases hcnt : u₀.disk.diskCount ≤ 0 ∨ u₀.disk.diskCount > 16
  · have hcancel : u₀.openPage hw 1 = .ok u₀.cancel := dif_pos hcnt
    unfold stageDisk at h
    rw [dif_pos hcnt] at h
    cases h
    cases hcancel.symm.trans hopen
    exact ⟨[], u₀, rfl, ⟨rfl, rfl, rfl⟩, rfl⟩
  · have hmenu : u₀.openPage hw 1 = .ok
        (u₀.ask (.disk u₀.disk.diskCount.toNat (diskMenuStart u₀.ws u₀.disk.diskCount.toNat (by omega))) fun v =>
          drawMenu 2 (contTop + 3) 76 (hw.diskLines u₀.disk.diskCount.toNat)
            (diskMenuStart u₀.ws u₀.disk.diskCount.toNat (by omega)) (drawDiskPage v)) := dif_neg hcnt
    cases hmenu.symm.trans hopen
    exact stageDisk_turns h hcnt ⟨rfl, rfl, rfl⟩ rfl

theorem runPage_turns {s : State} (hs : s.stage < 7) {e : PageEnd} {d : Disk} (h : runPage hw.devices s = some (e, d))
    (hu : Behind u₀ s.ws s.nodes s.disk) (hopen : u₀.openPage hw s.stage = .ok u) :
    Turns hw s.stage u s.nodes s.keys e d := by
  have hmap {page : Option PageEnd} (hpage : page.map (·, s.disk) = some (e, d)) : page = some e ∧ d = s.disk := by
    obtain ⟨e', hended, heq⟩ := Option.map_eq_some_iff.mp hpage
    cases heq
    exact ⟨hended, rfl⟩
  unfold runPage at h
  split at h
  · rename_i hstage
    rw [hstage] at hopen ⊢
    obtain ⟨hpage, rfl⟩ := hmap h
    cases hopen
    exact stageWelcome_turns hpage ⟨hu.ws, hu.nodes, hu.disk⟩ rfl
  · rename_i hstage
    rw [hstage] at hopen ⊢
    exact stageDisk_opened h hu hopen
  · rename_i hstage
    rw [hstage] at hopen ⊢
    obtain ⟨hpage, rfl⟩ := hmap h
    cases hopen
    exact stageHostname_turns hpage ⟨congrArg withHostname hu.ws, hu.nodes, hu.disk⟩ rfl
  · rename_i hstage
    rw [hstage] at hopen ⊢
    obtain ⟨hpage, rfl⟩ := hmap h
    cases hopen
    exact stageTimezone_turns hpage ⟨hu.ws, hu.nodes, hu.disk⟩
      (congrArg (fun w => Prompt.timezone (timezoneMenuStart w)) hu.ws)
  · rename_i hstage
    rw [hstage] at hopen ⊢
    obtain ⟨hpage, rfl⟩ := hmap h
    refine retrying_turns (fun hpass hu hopen => ?_) hpage hu hopen
    cases hopen
    exact rootPwPass_passes hpass ⟨hu.ws, hu.nodes, hu.disk⟩ rfl
  · rename_i hstage
    rw [hstage] at hopen ⊢
    obtain ⟨hpage, rfl⟩ := hmap h
    refine retrying_turns (fun hpass hu hopen => ?_) hpage hu hopen
    cases hopen
    exact userPass_passes hpass ⟨congrArg withUsername hu.ws, hu.nodes, hu.disk⟩ rfl
  · rename_i h0 h1 h2 h3 h4 h5
    simp only [imp_false] at h0 h1 h2 h3 h4 h5
    have hstage : s.stage = 6 := by omega
    rw [hstage] at hopen ⊢
    obtain ⟨hpage, rfl⟩ := hmap h
    cases hopen
    exact stageSummary_turns hpage ⟨hu.ws, hu.nodes, hu.disk⟩ rfl

/-- **One page is some keys.** -/
theorem iteration_typed {s s' : State} (h : iteration hw.l hw.devices s = .ok s') (hu : Shows hw s u) :
    ∃ used u', s.keys = used ++ s'.keys ∧ u.run hw used = .ok u' ∧ Shows hw s' u' := by
  unfold iteration at h
  split_ifs at h with hs hseven
  · rcases hu with ⟨_, u₀, hbehind, hopen⟩ | ⟨hstage, _⟩
    · split at h
      · cases h
      · rename_i e d hpage
        obtain ⟨used, u', hkeys, hbehind', hrun⟩ := runPage_turns hs hpage hbehind hopen
        unfold turnPage at h
        unfold Ui.turn at hrun
        split_ifs at h hrun with hnext hback hfirst
        · cases h
          obtain ⟨u'', hopen'⟩ := Ui.openPage_ok hw (s.stage + 1) u'
          exact ⟨used, u'', hkeys, hrun.trans hopen', .inl ⟨by show s.stage + 1 ≤ 7; omega, u', hbehind', hopen'⟩⟩
        · cases h
          obtain ⟨u'', hopen'⟩ := Ui.openPage_ok hw (s.stage - 1) u'
          exact ⟨used, u'', hkeys, hrun.trans hopen', .inl ⟨by show s.stage - 1 ≤ 7; omega, u', hbehind', hopen'⟩⟩
        · cases h
          obtain ⟨u'', hopen'⟩ := Ui.openPage_ok hw (s.stage - 1) u'
          have hzero : s.stage - 1 = s.stage := by
            have hfirst : ¬ s.stage > 0 := hfirst
            omega
          refine ⟨used, u'', hkeys, hrun.trans hopen', .inl ⟨hs.le, u', hbehind', ?_⟩⟩
          rw [← hzero]
          exact hopen'
    · omega
  · rcases hu with ⟨_, u₀, hbehind, hopen⟩ | ⟨hstage, _⟩
    · rw [hseven] at hopen
      obtain ⟨u₁, hinstall, hend⟩ := install_shown hw u₀
      have hu₁ : u₁ = u := Except.ok.inj (hinstall.symm.trans hopen)
      rw [hu₁, hbehind.ws, hbehind.disk] at hend
      rcases hend with ⟨t, d, heq, hcomplete, hleft⟩ | ⟨k, d, heq, -⟩
      · rw [heq] at h
        cases h
        exact ⟨[], u, rfl, rfl, .inr ⟨rfl, hcomplete, hleft⟩⟩
      · rw [heq] at h
        cases h
    · omega

/-- **Whatever pages have been run, their keys have been typed**: the wizard that takes them one by one is on the page
that comes next, with the same state. -/
theorem reached_typed (hw : Hardware) (d : Disk) (v : Vga) (keys : List Key) (start s : State)
    (hstart : installerStart hw.devices hw.lastError d keys = some start) (h : Reached hw.l hw.devices start s) :
    ∃ u₀ used u, Ui.begin hw d v = .ok u₀ ∧ keys = used ++ s.keys ∧ u₀.run hw used = .ok u ∧ Shows hw s u := by
  unfold installerStart at hstart
  dsimp only at hstart
  split at hstart
  · cases hstart
  · rename_i hcount
    cases hstart
    obtain ⟨u₀, hopen⟩ := Ui.openPage_ok hw 0
      ⟨initialWiz, .noDisk, fsInit,
        diskInit ⟨hw.devices.count, hw.lastError⟩ {d with drive := (hw.devices.device 0).drive},
        ({v with vpTop := 0, vpBot := Vga.height - 1}.setColor Vga.lightGrey Vga.black).clear⟩
    have hbegin : Ui.begin hw d v = .ok u₀ := (if_neg hcount).trans hopen
    refine ⟨u₀, ?_⟩
    induction h with
    | start => exact ⟨[], u₀, hbegin, rfl, rfl, .inl ⟨Nat.zero_le _, _, ⟨rfl, rfl, rfl⟩, hopen⟩⟩
    | step _ _ hstep ih =>
      obtain ⟨used, u, _, hkeys, hrun, hshows⟩ := ih
      obtain ⟨more, u', hmore, hrun', hshows'⟩ := iteration_typed hstep hshows
      refine ⟨used ++ more, u', hbegin, by rw [hkeys, hmore, List.append_assoc], ?_, hshows'⟩
      rw [Ui.run_append, hrun, Foundation.ok_bind, hrun']

end Runs

/-- A machine with one disk. -/
def oneDiskMachine : Hardware :=
  { l := smallSystem
    devices := oneDisk
    info := fun index =>
      { present := true
        index := index
        isAhci := false
        ioBase := 0x1F0
        slave := 0
        sectors28 := 6144
        model := fun _ => 0 }
    debug := ⟨0x12378086, 0, 0, 0, 0, 0, 0⟩
    lastError := .ofLit "ok" }

theorem reached_typed_enter :
    ∃ s u₀ used u, s.stage = 7 ∧ Ui.begin oneDiskMachine blankDisk Vga.initial = .ok u₀ ∧
      enterKeys = used ++ s.keys ∧ u₀.run oneDiskMachine used = .ok u ∧ Shows oneDiskMachine s u := by
  obtain ⟨s, hreached, hstage⟩ := enterKeys_reach
  obtain ⟨u₀, used, u, h⟩ :=
    reached_typed oneDiskMachine blankDisk Vga.initial enterKeys enterStart s rfl hreached
  exact ⟨s, u₀, used, u, hstage, h⟩

end FurOS.Installer
