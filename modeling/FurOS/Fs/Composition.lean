import FurOS.Fs.Runs

/-! Paths compose.

A path that is two paths with a `'/'` between them leads where the second leads from
where the first does (`resolve_join`). So a component that leads back to where it
started can stand anywhere between two others (`resolve_insert`): an empty one, `.`,
and a child followed by `..`. -/
namespace FurOS
open Foundation (components walk)

namespace CStr

def empty : CStr := ⟨[], by simp⟩

/-- `p`, a `'/'` and `q`. -/
def join (p q : CStr) : CStr :=
  ⟨p.chars ++ slash :: q.chars, fun h => by
    rcases List.mem_append.mp h with h | h
    · exact p.noNul h
    · rcases List.mem_cons.mp h with h | h
      · exact absurd h (by decide)
      · exact q.noNul h⟩

@[simp] theorem empty_chars : empty.chars = [] := rfl
@[simp] theorem join_chars (p q : CStr) : (p.join q).chars = p.chars ++ slash :: q.chars := rfl

end CStr

/-- The path leads nowhere, or to a node from where `x` leads to one of which it is the parent. -/
def ToChild (t : Nodes) (cwd : Int) (path x : CStr) : Prop :=
  ∀ m, fsResolve t cwd path = .ok m → 0 ≤ m →
    ∃ k : NodeId, fsResolve t m x = .ok (k.val : Int) ∧ (t k).parent.toInt = m

section Join
variable (t : Nodes) (c : NodeId)

/-- The first half of a path, and the walk on from there. -/
theorem resolve_join (p q : CStr) : resolve t c (p.join q).chars =
    (resolve t c (p.join .empty).chars).bind fun m => walk (stepName t) m (components slash q.chars) := by
  have hstart : startOf c (p.join q).chars = startOf c (p.join .empty).chars := by
    unfold startOf
    simp
  unfold resolve
  rw [hstart]
  simp only [CStr.join_chars, CStr.empty_chars]
  rw [Foundation.components_append, Foundation.components_append, Foundation.walk_append]
  simp

/-- A path that does not start with `'/'` is walked from where it starts. -/
theorem resolve_relative {q : CStr} (hq : q.chars.head? ≠ some slash) :
    resolve t c q.chars = walk (stepName t) c (components slash q.chars) := by
  unfold resolve startOf
  rw [if_neg hq]

/-- A `'/'` at the end of a path changes nothing. -/
theorem resolve_slash {p : CStr} (hp : p.chars ≠ []) :
    resolve t c (p.join .empty).chars = resolve t c p.chars := by
  have hstart : startOf c (p.join .empty).chars = startOf c p.chars := by
    unfold startOf
    rw [CStr.join_chars, List.head?_append_of_ne_nil p.chars hp]
  unfold resolve
  rw [hstart, CStr.join_chars, CStr.empty_chars, Foundation.components_append,
    Foundation.components_nil, List.append_nil]

/-- What leads from every node where the first half may end back to that node may be left out. -/
theorem resolve_insert (p q x : CStr)
    (hx : ∀ m, resolve t c (p.join .empty).chars = some m →
      walk (stepName t) m (components slash x.chars) = some m) :
    resolve t c (p.join (x.join q)).chars = resolve t c (p.join q).chars := by
  rw [resolve_join t c p (x.join q), resolve_join t c p q]
  cases hm : resolve t c (p.join .empty).chars with
  | none => rfl
  | some m =>
    rw [Option.bind_some, Option.bind_some, CStr.join_chars, Foundation.components_append,
      Foundation.walk_append, hx m hm, Option.bind_some]

end Join

/-- A child, and back up. -/
theorem walk_child_back {t : Nodes} (wf : WellFormed t) {m k : NodeId} {x : CStr}
    (hk : walk (stepName t) m (components slash x.chars) = some k) (hpar : (t k).parent.toInt = m.val) :
    walk (stepName t) m (components slash (x.join (.ofLit "..")).chars) = some m := by
  have hup : components slash (CStr.ofLit "..").chars = [lit ".."] := by decide
  have hstep : stepName t k (lit "..") = some m := by
    unfold stepName
    rw [if_neg (by decide), if_pos rfl]
    split
    · rename_i h0
      subst h0
      rw [wf.root_parent] at hpar
      have hzero : (0 : Int) = m.val := hpar
      have hm : m = 0 := Fin.ext (by show m.val = 0; omega)
      rw [hm]
    · exact parentOf_eq_some.mpr hpar
  rw [CStr.join_chars, Foundation.components_append, Foundation.walk_append, hk, hup, Option.bind_some,
    Foundation.walk_cons, hstep]
  rfl

/-- **Resolution is compositional.** -/
theorem fsResolve_join (t : Nodes) (wf : WellFormed t) (c : NodeId) (hc : (t c).used = true) :
    (∀ p q : CStr, p.chars ≠ [] → q.chars.head? ≠ some slash →
      (∀ m, 0 ≤ m → fsResolve t (c.val : Int) p = .ok m →
        fsResolve t (c.val : Int) (p.join q) = fsResolve t m q) ∧
      (fsResolve t (c.val : Int) p = .ok (-1) → fsResolve t (c.val : Int) (p.join q) = .ok (-1))) ∧
    ∀ p q : CStr,
      fsResolve t (c.val : Int) (p.join (CStr.empty.join q)) = fsResolve t (c.val : Int) (p.join q) ∧
      fsResolve t (c.val : Int) (p.join ((CStr.ofLit ".").join q)) = fsResolve t (c.val : Int) (p.join q) ∧
      ∀ x : CStr, x.chars.head? ≠ some slash → ToChild t (c.val : Int) (p.join .empty) x →
        fsResolve t (c.val : Int) (p.join ((x.join (.ofLit "..")).join q)) =
          fsResolve t (c.val : Int) (p.join q) := by
  have nav := wf.navigable
  refine ⟨fun p q hp hq => ⟨fun m hm hres => ?_, fun hres => ?_⟩, fun p q => ⟨?_, ?_, fun x hx hto => ?_⟩⟩
  · rw [fsResolve_eq nav hc] at hres
    cases hr : resolve t c p.chars with
    | none =>
      rw [hr, toC_none] at hres
      cases hres
      omega
    | some n =>
      have hn := resolve_used nav hc hr
      rw [hr, toC_some] at hres
      cases hres
      rw [fsResolve_eq nav hc, fsResolve_eq nav hn, resolve_join, resolve_slash t c hp, hr,
        resolve_relative t n hq]
      rfl
  · rw [fsResolve_eq nav hc] at hres ⊢
    cases hr : resolve t c p.chars with
    | none =>
      rw [resolve_join, resolve_slash t c hp, hr]
      rfl
    | some n =>
      rw [hr, toC_some] at hres
      have hneg : (n.val : Int) = -1 := Except.ok.inj hres
      omega
  · rw [fsResolve_eq nav hc, fsResolve_eq nav hc, resolve_insert t c p q .empty fun _ _ => rfl]
  · have hdot : components slash (CStr.ofLit ".").chars = [lit "."] := by decide
    rw [fsResolve_eq nav hc, fsResolve_eq nav hc, resolve_insert t c p q (.ofLit ".") fun m _ => by rw [hdot]; rfl]
  · rw [fsResolve_eq nav hc, fsResolve_eq nav hc, resolve_insert t c p q _ fun m hm => ?_]
    obtain ⟨k, hk, hpar⟩ := hto m.val ((fsResolve_eq_some nav hc).mpr hm) (by omega)
    have hk' := (fsResolve_eq_some nav (resolve_used nav hc hm)).mp hk
    rw [resolve_relative t m hx] at hk'
    exact walk_child_back wf hk' hpar

/-- In a directory, with a parent to go up to and names to go down by. -/
theorem fsResolve_join_nested :
    (∀ p q : CStr, p.chars ≠ [] → q.chars.head? ≠ some slash →
      (∀ m, 0 ≤ m → fsResolve nested 1 p = .ok m → fsResolve nested 1 (p.join q) = fsResolve nested m q) ∧
      (fsResolve nested 1 p = .ok (-1) → fsResolve nested 1 (p.join q) = .ok (-1))) ∧
    ∀ p q : CStr,
      fsResolve nested 1 (p.join (CStr.empty.join q)) = fsResolve nested 1 (p.join q) ∧
      fsResolve nested 1 (p.join ((CStr.ofLit ".").join q)) = fsResolve nested 1 (p.join q) ∧
      ∀ x : CStr, x.chars.head? ≠ some slash → ToChild nested 1 (p.join .empty) x →
        fsResolve nested 1 (p.join ((x.join (.ofLit "..")).join q)) = fsResolve nested 1 (p.join q) :=
  fsResolve_join nested nested_wellFormed 1 nested_nodes.2.1.1

end FurOS
