import Gatehouse.Proofs.Path.Grammar
import Gatehouse.Proofs.Resolution.Meaning

/-!
# Rendering of paths

What this file fixes, and what it shows:

* `Path.render`: the path that a namespace and segments write, a wildcard without a dot before it;
* `Path.tidied`: a path without its idle dots, those right before a wildcard;
* `continues_flatMap_chars`, `withoutIdleDots_of_continues`: rendered segments are read as they
  were, and rendering what was read leaves out the idle dots and nothing else;
* `render_inverse`: so rendering and reading are inverse, up to idle dots.
-/

namespace Gatehouse

/-! ## 1. Texts -/

/-- The text of a segment: a key after a dot, a wildcard without one. -/
def Segment.chars : Segment → List Char
  | .key k => '.' :: k.toList
  | .wildcard => ['[', '*', ']']

/-- The segment can be written: the name of a key has characters, and no dot or opening bracket
    among them. -/
def Segment.IsWritable : Segment → Prop
  | .key k => Cursor.IsKey k.toList
  | .wildcard => True

instance : ∀ s : Segment, Decidable s.IsWritable
  | .key k => inferInstanceAs (Decidable (Cursor.IsKey k.toList))
  | .wildcard => .isTrue trivial

namespace Path

/-- The path that a namespace and segments write. -/
def render (n : Namespace) (ss : List Segment) : Path :=
  ⟨String.ofList (n.name.toList ++ ss.flatMap Segment.chars)⟩

/-- The text without the dots that stand right before a wildcard. -/
def withoutIdleDots : List Char → List Char
  | [] => []
  | c :: cs =>
      if c = '.' ∧ ['[', '*', ']'] <+: cs then withoutIdleDots cs else c :: withoutIdleDots cs

/-- The path without its idle dots. -/
def tidied (p : Path) : Path := ⟨String.ofList (withoutIdleDots p.text.toList)⟩

/-! ## 2. Idle dots -/

/-- Characters that are no dots stay. -/
theorem withoutIdleDots_append {before : List Char} (h : '.' ∉ before) (rest : List Char) :
    withoutIdleDots (before ++ rest) = before ++ withoutIdleDots rest := by
  induction before with
  | nil => rfl
  | cons c before ih =>
      obtain ⟨hc, hbefore⟩ := not_or.mp (List.mem_cons.not.mp h)
      rw [List.cons_append, withoutIdleDots, if_neg fun hidle => hc hidle.1.symm, ih hbefore,
        List.cons_append]

/-- A dot before a key is not idle. -/
theorem withoutIdleDots_key {k : List Char} (hk : Cursor.IsKey k) (rest : List Char) :
    withoutIdleDots ('.' :: (k ++ rest)) = '.' :: (k ++ withoutIdleDots rest) := by
  have hneeded : ¬ ['[', '*', ']'] <+: k ++ rest := by
    cases k with
    | nil => exact absurd rfl hk.ne_nil
    | cons c k =>
        intro hbracket
        obtain ⟨rfl, _⟩ := List.cons_prefix_cons.mp hbracket
        exact hk.no_bracket List.mem_cons_self
  rw [withoutIdleDots, if_neg fun hidle => hneeded hidle.2, withoutIdleDots_append hk.no_dot]

/-- A wildcard stays as it is. -/
theorem withoutIdleDots_wildcard (rest : List Char) :
    withoutIdleDots ('[' :: '*' :: ']' :: rest) = '[' :: '*' :: ']' :: withoutIdleDots rest :=
  withoutIdleDots_append (by decide : '.' ∉ ['[', '*', ']']) rest

/-- **What is read after a segment is written as it stands there**, but for idle dots. -/
theorem withoutIdleDots_of_continues {cs : List Char} {ss : List Segment} (h : Continues cs ss) :
    withoutIdleDots cs = ss.flatMap Segment.chars := by
  induction h with
  | done => rfl
  | @key k rest ss hk _ ih =>
      rw [withoutIdleDots_key hk, ih, List.flatMap_cons, Segment.chars, String.toList_ofList,
        List.cons_append]
  | @wildcard rest ss _ ih =>
      rw [withoutIdleDots_wildcard, ih]
      rfl
  | @dottedWildcard rest ss _ ih =>
      have hidle : ['[', '*', ']'] <+: '[' :: '*' :: ']' :: rest := ⟨rest, rfl⟩
      rw [withoutIdleDots, if_pos ⟨rfl, hidle⟩, withoutIdleDots_wildcard, ih]
      rfl

/-! ## 3. Rendered segments -/

/-- **Segments that can be written are read as they were.** -/
theorem continues_flatMap_chars {ss : List Segment} (h : ∀ s ∈ ss, s.IsWritable) :
    Continues (ss.flatMap Segment.chars) ss := by
  induction ss with
  | nil => exact .done
  | cons s ss ih =>
      obtain ⟨hs, hss⟩ := List.forall_mem_cons.mp h
      rw [List.flatMap_cons]
      cases s with
      | wildcard => exact .wildcard (ih hss)
      | key k =>
          have hkey := Continues.key hs (ih hss)
          rw [String.ofList_toList] at hkey
          exact hkey

theorem spells_render {n : Namespace} {k : String} {ss : List Segment}
    (h : ∀ s ∈ .key k :: ss, s.IsWritable) : (render n (.key k :: ss)).Spells n (.key k :: ss) := by
  obtain ⟨hk, hss⟩ := List.forall_mem_cons.mp h
  have htext : (render n (.key k :: ss)).text.toList =
      n.name.toList ++ '.' :: (k.toList ++ ss.flatMap Segment.chars) := by
    rw [render, String.toList_ofList, List.flatMap_cons, Segment.chars, List.cons_append]
  have hspells := Spells.intro htext hk (continues_flatMap_chars hss)
  rw [String.ofList_toList] at hspells
  exact hspells

/-- What segments were read as can be written. -/
theorem isWritable_of_continues {cs : List Char} {ss : List Segment} (h : Continues cs ss) :
    ∀ s ∈ ss, s.IsWritable := by
  induction h with
  | done => exact List.forall_mem_nil _
  | key hk _ ih =>
      refine List.forall_mem_cons.mpr ⟨?_, ih⟩
      rw [Segment.IsWritable, String.toList_ofList]
      exact hk
  | wildcard _ ih => exact List.forall_mem_cons.mpr ⟨trivial, ih⟩
  | dottedWildcard _ ih => exact List.forall_mem_cons.mpr ⟨trivial, ih⟩

/-- **Rendering the segments of a path tidies it**, and they can be written. -/
theorem render_of_spells {p : Path} {n : Namespace} {ss : List Segment} (h : p.Spells n ss) :
    render n ss = p.tidied ∧ (p.tidied).Spells n ss := by
  cases h with
  | @intro k rest ss htext hk hrest =>
      have htidied : render n (.key (String.ofList k) :: ss) = p.tidied := by
        rw [render, tidied, htext, withoutIdleDots_append n.no_dot_name, withoutIdleDots_key hk,
          withoutIdleDots_of_continues hrest, List.flatMap_cons, Segment.chars,
          String.toList_ofList, List.cons_append]
      refine ⟨htidied, htidied ▸ spells_render (List.forall_mem_cons.mpr ⟨?_, ?_⟩)⟩
      · rw [Segment.IsWritable, String.toList_ofList]
        exact hk
      · exact isWritable_of_continues hrest

/-! ## 4. Both ways -/

/-- **Rendering and reading are inverse, up to idle dots.** Segments that start with a key and can be
    written are read from the path that they write. And a well-formed path has segments that write it
    without its idle dots; the tidied path is well formed, has the same segments and leads to the
    same in every context. -/
theorem render_inverse (n : Namespace) :
    (∀ (k : String) (ss : List Segment), (∀ s ∈ .key k :: ss, s.IsWritable) →
      (render n (.key k :: ss)).check = .ok n ∧
      (render n (.key k :: ss)).items = (.key k :: ss).map .ok) ∧
    ∀ p : Path, p.check = .ok n → ∃ ss : List Segment, p.items = ss.map .ok ∧
      render n ss = p.tidied ∧ (render n ss).check = .ok n ∧ (render n ss).items = p.items ∧
      ∀ ctx : Context, ctx.resolve (render n ss) = ctx.resolve p := by
  refine ⟨fun k ss h => spells_iff.mp (spells_render h), fun p h => ?_⟩
  obtain ⟨_, k, ss, _, hitems⟩ := check_eq_ok_iff.mp h
  have hspells : p.Spells n (.key k :: ss) := spells_iff.mpr ⟨h, hitems⟩
  obtain ⟨htidied, hsame⟩ := render_of_spells hspells
  rw [← htidied] at hsame
  obtain ⟨hcheck, hread⟩ := spells_iff.mp hsame
  refine ⟨.key k :: ss, hitems, htidied, hcheck, hread.trans hitems.symm, fun ctx => ?_⟩
  rw [ctx.resolve_of_spells hsame, ctx.resolve_of_spells hspells]

/-- A closing bracket and a star belong to keys, and only the dots before wildcards are idle. -/
theorem render_inverse_brackets :
    render .body [.key "a]b", .wildcard, .wildcard, .key "*"] = ⟨"body.a]b[*][*].*"⟩ ∧
    check ⟨"body.a]b[*][*].*"⟩ = .ok .body ∧
    items ⟨"body.a]b[*][*].*"⟩ =
      [.ok (.key "a]b"), .ok .wildcard, .ok .wildcard, .ok (.key "*")] ∧
    check ⟨"body.a]b.[*].[*].*"⟩ = .ok .body ∧
    tidied ⟨"body.a]b.[*].[*].*"⟩ = ⟨"body.a]b[*][*].*"⟩ ∧
    ∀ ctx : Context, ctx.resolve ⟨"body.a]b[*][*].*"⟩ = ctx.resolve ⟨"body.a]b.[*].[*].*"⟩ := by
  have hrendered : render .body [.key "a]b", .wildcard, .wildcard, .key "*"] =
      ⟨"body.a]b[*][*].*"⟩ := by decide +kernel
  have hdotted : check ⟨"body.a]b.[*].[*].*"⟩ = .ok .body := by decide +kernel
  have htidied : tidied ⟨"body.a]b.[*].[*].*"⟩ = ⟨"body.a]b[*][*].*"⟩ := by decide +kernel
  obtain ⟨hwritten, hread⟩ := render_inverse .body
  obtain ⟨hcheck, hitems⟩ :=
    hwritten "a]b" [.wildcard, .wildcard, .key "*"] (by decide +kernel)
  obtain ⟨_, _, hrender, _, _, hresolve⟩ := hread ⟨"body.a]b.[*].[*].*"⟩ hdotted
  rw [hrendered] at hcheck hitems
  rw [hrender, htidied] at hresolve
  exact ⟨hrendered, hcheck, hitems, hdotted, htidied, hresolve⟩

end Path

end Gatehouse
