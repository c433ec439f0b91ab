import Gatehouse.Proofs.Condition.Alike
import Gatehouse.Proofs.Resolution.Meaning

/-!
# The case of header names

What this file fixes, and what it shows:

* `folded`, `NamesApart`: headers with their names in lower case, and headers of which no two have
  names that differ in the case of ASCII letters only;
* `header?_eq_some_iff_mem`: in such headers there is at most one for a name, so that it does not
  matter that a header spelled like the name comes before the others;
* `Path.Recased`, `Context.Recased`, `Leaf.Recased`: the same but for the case of letters in header
  names. Headers may change their order with their names;
* `resolve_recased`, `apply_recased`: a path leads to the same value, and an operator has the same
  verdict or an error that differs in the text of a path only, and so has every tree;
* `resolve_header_iff`, `resolve_header_eq_absent_iff`, `resolve_other`, `meaning_key_object`: which
  header is taken where names are not apart, and that all other keys are told apart by case;
* `header_names_fold`: both together.
-/

namespace Gatehouse

/-! ## 1. Names in lower case -/

namespace Text

/-- The characters of a name with ASCII letters in lower case. -/
def lowered (s : String) : List Char := s.toList.map Char.toLower

theorem sameIgnoringCase_iff {a b : String} :
    sameIgnoringCase a b = true ↔ lowered a = lowered b := beq_iff_eq

end Text

namespace Cursor

/-- What ends a key is no letter, and no letter becomes such a character. -/
theorem endsKey_toLower (c : Char) : endsKey c.toLower = endsKey c := by
  unfold Char.toLower
  split
  · rename_i hupper
    -- the codes of a dot and a bracket lie outside of both ranges of letters
    have hle : 65 ≤ c.val.toNat ∧ c.val.toNat ≤ 90 := hupper
    have hshift : ('a'.val - 'A'.val).toNat = 32 := rfl
    have hends : ∀ d : Char, d.val.toNat ≠ 46 → d.val.toNat ≠ 91 → endsKey d = false := by
      intro d hdot hbracket
      rw [Bool.eq_false_iff, ne_eq, endsKey_iff]
      rintro (rfl | rfl)
      · exact hdot rfl
      · exact hbracket rfl
    rw [hends c (by omega) (by omega)]
    refine hends _ ?_ ?_ <;>
      · simp only [UInt32.toNat_add]
        omega
  · rfl

theorem isKey_iff {k : List Char} : IsKey k ↔ k ≠ [] ∧ ∀ c ∈ k, endsKey c = false := by
  constructor
  · intro h
    exact ⟨h.ne_nil, fun c hc => h.endsKey_of_mem hc⟩
  · intro ⟨hne, hends⟩
    refine ⟨hne, fun hdot => ?_, fun hbracket => ?_⟩
    · cases hends _ hdot
    · cases hends _ hbracket

/-- Whether some characters are a key does not depend on the case of letters. -/
theorem isKey_map_toLower {k : List Char} : IsKey (k.map Char.toLower) ↔ IsKey k := by
  rw [isKey_iff, isKey_iff, List.forall_mem_map]
  simp only [endsKey_toLower, ne_eq, List.map_eq_nil_iff]

/-- What ends a key may follow it. -/
theorem exists_afterSegment {rest : List Char} (h : ∀ c ∈ rest.head?, endsKey c = true) :
    ∃ c, afterSegment rest = .ok c := by
  cases rest with
  | nil => exact ⟨_, rfl⟩
  | cons d rest =>
      rcases endsKey_iff.mp (h d rfl) with rfl | rfl
      · exact ⟨_, rfl⟩
      · exact ⟨_, rfl⟩

end Cursor

/-! ## 2. Headers -/

section Headers

variable {headers headers' : Attributes}

/-- The headers with their names in lower case. -/
def folded (headers : Attributes) : List (List Char × Value) :=
  headers.map fun e => (Text.lowered e.1, e.2)

/-- No two headers have names that differ in the case of letters only. -/
def NamesApart (headers : Attributes) : Prop := ((folded headers).map Prod.fst).Nodup

instance (headers : Attributes) : Decidable (NamesApart headers) :=
  inferInstanceAs (Decidable (List.Nodup _))

theorem mem_folded {name : String} {v : Value} (h : (name, v) ∈ headers) :
    (Text.lowered name, v) ∈ folded headers := List.mem_map_of_mem h

theorem mem_folded_of_header? {name : String} {v : Value} (h : header? headers name = some v) :
    (Text.lowered name, v) ∈ folded headers := by
  unfold header? at h
  split at h
  · rename_i u hu
    cases h
    exact mem_folded (mem_of_lookup hu)
  · obtain ⟨⟨first, u⟩, hfirst, hu⟩ := Option.map_eq_some_iff.mp h
    have hsame := List.find?_some hfirst
    cases hu
    rw [← Text.sameIgnoringCase_iff.mp hsame]
    exact mem_folded (List.mem_of_find?_eq_some hfirst)

/-- Some header is found exactly if there is one whose name differs in the case of letters at
    most. -/
theorem exists_header?_iff {name : String} : (∃ v, header? headers name = some v) ↔
    ∃ e ∈ headers, Text.sameIgnoringCase e.1 name = true := by
  constructor
  · intro ⟨v, hv⟩
    obtain ⟨e, he, hfold⟩ := List.mem_map.mp (mem_folded_of_header? hv)
    exact ⟨e, he, Text.sameIgnoringCase_iff.mpr (congrArg Prod.fst hfold)⟩
  · intro ⟨e, he, hsame⟩
    unfold header?
    cases headers.lookup name with
    | some v => exact ⟨v, rfl⟩
    | none =>
        have hsome : (headers.find? fun e => Text.sameIgnoringCase e.1 name).isSome = true :=
          List.find?_isSome.mpr ⟨e, he, hsame⟩
        obtain ⟨first, hfirst⟩ := Option.isSome_iff_exists.mp hsome
        exact ⟨first.2, Option.map_eq_some_iff.mpr ⟨first, hfirst, rfl⟩⟩

/-- **Where names are apart, a name has the value of the only header that may be meant by it.** -/
theorem header?_eq_some_iff_mem (h : NamesApart headers) {name : String} {v : Value} :
    header? headers name = some v ↔ (Text.lowered name, v) ∈ folded headers := by
  constructor
  · exact mem_folded_of_header?
  · intro hv
    obtain ⟨e, he, hfold⟩ := List.mem_map.mp hv
    have hsame : Text.sameIgnoringCase e.1 name = true :=
      Text.sameIgnoringCase_iff.mpr (congrArg Prod.fst hfold)
    obtain ⟨u, hu⟩ := exists_header?_iff.mpr ⟨e, he, hsame⟩
    -- what is found has the same name in lower case, and there is one header of that name
    have heq := List.inj_on_of_nodup_map h (mem_folded_of_header? hu) hv rfl
    rw [hu]
    exact congrArg (fun e => some e.2) heq

/-- A name and its recasings have the same value in headers and their recasings. -/
theorem header?_recased (h : NamesApart headers) (hperm : (folded headers).Perm (folded headers'))
    {name name' : String} (hname : Text.lowered name = Text.lowered name') :
    header? headers name = header? headers' name' := by
  have h' : NamesApart headers' := (hperm.map Prod.fst).nodup_iff.mp h
  ext v
  rw [header?_eq_some_iff_mem h, header?_eq_some_iff_mem h', hname, hperm.mem_iff]

end Headers

/-! ## 3. Paths and contexts -/

/-- The paths are the same, or both start with a key of the headers, and these keys are the same but
    for the case of letters. -/
inductive Path.Recased : Path → Path → Prop
  | same (p : Path) : Recased p p
  | header {p p' : Path} (k k' rest : List Char) : Cursor.IsKey k →
      k.map Char.toLower = k'.map Char.toLower → (∀ c ∈ rest.head?, Cursor.endsKey c = true) →
      p.text.toList = Namespace.header.name.toList ++ '.' :: (k ++ rest) →
      p'.text.toList = Namespace.header.name.toList ++ '.' :: (k' ++ rest) → Recased p p'

/-- What a path reads that starts with a namespace and a key. -/
theorem Path.root?_of_text {p : Path} {n : Namespace} {k rest : List Char} {c : Cursor}
    (htext : p.text.toList = n.name.toList ++ '.' :: (k ++ rest)) (hk : Cursor.IsKey k)
    (hrest : Cursor.afterSegment rest = .ok c) :
    p.root? = some (n, String.ofList k) ∧ p.items.tail = c.items := by
  have hsplit : p.split? = some (n, k ++ rest) := split?_eq_some_iff.mpr htext
  have hitems : p.items = .ok (.key (String.ofList k)) :: c.items := by
    rw [items_of_split hsplit]
    exact Cursor.items_of_next (Cursor.next_eq_ok_iff.mpr ⟨k, rest, true, rfl, .key hk, hrest⟩)
  exact ⟨root?_eq_some_iff.mpr ⟨⟨_, hsplit⟩, _, hitems⟩, by rw [hitems, List.tail_cons]⟩

namespace Context

variable {ctx ctx' : Context}

/-- The contexts are the same but for the case of letters in header names, and the order of
    headers. -/
structure Recased (ctx ctx' : Context) : Prop where
  header : (folded ctx.header).Perm (folded ctx'.header)
  others : ∀ n, n ≠ .header → ctx.attributes n = ctx'.attributes n

theorem Recased.entry?_eq (hctx : ctx.Recased ctx') (h : NamesApart ctx.header) (n : Namespace)
    (k : String) : ctx.entry? n k = ctx'.entry? n k := by
  by_cases hn : n = .header
  · subst hn
    exact header?_recased h hctx.header rfl
  · exact entry?_congr (hctx.others n hn) k

/-- **A path leads to the same value in both spellings.** -/
theorem resolve_recased (h : NamesApart ctx.header) (hctx : ctx.Recased ctx') {p p' : Path}
    (hp : p.Recased p') : ctx.resolve p = ctx'.resolve p' := by
  cases hp with
  | same => exact resolve_congr fun n k _ => hctx.entry?_eq h n k
  | @header _ k k' rest hk hsame hrest htext htext' =>
      have hk' : Cursor.IsKey k' := by
        rw [← Cursor.isKey_map_toLower, ← hsame]
        exact Cursor.isKey_map_toLower.mpr hk
      have hname : Text.lowered (String.ofList k) = Text.lowered (String.ofList k') := by
        simp only [Text.lowered, String.toList_ofList, hsame]
      obtain ⟨c, hc⟩ := Cursor.exists_afterSegment hrest
      obtain ⟨hroot, htail⟩ := Path.root?_of_text htext hk hc
      obtain ⟨hroot', htail'⟩ := Path.root?_of_text htext' hk' hc
      have hentry : ctx.entry? .header (String.ofList k) = ctx'.entry? .header (String.ofList k') :=
        header?_recased h hctx.header hname
      rw [resolve_of_root hroot, resolve_of_root hroot', hentry, htail, htail']

end Context

/-! ## 4. Operators -/

/-- The same error of the same operator, about paths that are the same up to case. -/
inductive EvalError.Recased : EvalError → EvalError → Prop
  | missingAttribute {p p' : Path} (o : Operator) : p.Recased p' →
      Recased (.missingAttribute p o) (.missingAttribute p' o)
  | typeMismatch {p p' : Path} (o : Operator) (found : String) : p.Recased p' →
      Recased (.typeMismatch p o found) (.typeMismatch p' o found)
  | missingComparand {p p' : Path} (o : Operator) : p.Recased p' →
      Recased (.missingComparand p o) (.missingComparand p' o)

/-- The operands are the same, but for the case of letters in paths. -/
structure Operands.Recased (x y : Operands) : Prop where
  path : x.path.Recased y.path
  value : x.value = y.value
  comparandPath : Option.Rel Path.Recased x.comparandPath y.comparandPath
  comparand : x.comparand = y.comparand

namespace Operands

variable {x y : Operands}

theorem Recased.getD (h : x.Recased y) :
    (x.comparandPath.getD x.path).Recased (y.comparandPath.getD y.path) := by
  have hcomparandPath := h.comparandPath
  generalize x.comparandPath = p at hcomparandPath ⊢
  generalize y.comparandPath = q at hcomparandPath ⊢
  cases hcomparandPath with
  | none => exact h.path
  | some hpq => exact hpq

/-- A test of the comparand's value has the same outcome, up to case. -/
theorem Recased.map_comparandValue (h : x.Recased y) (o : Operator) (f : Value → Bool) :
    OutcomeUpTo EvalError.Recased ((x.comparandValue o).map f) ((y.comparandValue o).map f) := by
  unfold comparandValue
  rw [← h.comparand]
  cases x.comparand with
  | none => exact .error (.missingComparand o h.path)
  | some r =>
      cases r with
      | absent => exact .error (.missingAttribute o h.getD)
      | present v => exact .ok (f v)

theorem Recased.sidesAgree (h : x.Recased y) (o : Operator) :
    OutcomeUpTo EvalError.Recased (x.sidesAgree o) (y.sidesAgree o) := by
  unfold Operands.sidesAgree
  rw [← h.value]
  cases x.value with
  | absent => exact .error (.missingAttribute o h.path)
  | present v => exact h.map_comparandValue o _

theorem Recased.listContains (h : x.Recased y) :
    OutcomeUpTo EvalError.Recased x.listContains y.listContains := by
  unfold Operands.listContains
  rw [← h.value]
  cases x.value with
  | absent => exact .ok false
  | present v =>
      cases v with
      | array items => exact h.map_comparandValue .contains _
      | null | bool b | number n | string s | object entries =>
          exact .error (.typeMismatch .contains _ h.path)

/-- **No operator tells the case of header names**, but in the paths of its errors. -/
theorem apply_recased (h : x.Recased y) (o : Operator) :
    OutcomeUpTo EvalError.Recased (o.apply x) (o.apply y) := by
  cases o with
  | equals => exact h.sidesAgree .equals
  | notEquals =>
      rw [Operator.apply, Operator.apply]
      have hagree := h.sidesAgree .notEquals
      generalize x.sidesAgree .notEquals = a at hagree ⊢
      generalize y.sidesAgree .notEquals = b at hagree ⊢
      cases hagree with
      | ok b => exact .ok (!b)
      | error he => exact .error he
  | isNull =>
      rw [Operator.apply, Operator.apply, h.value]
      exact .ok _
  | isNotNull =>
      rw [Operator.apply, Operator.apply, h.value]
      exact .ok _
  | contains => exact h.listContains

end Operands

/-! ## 5. Trees -/

/-- The comparands are the same up to the case of header names in paths. -/
inductive Comparand.Recased : Comparand → Comparand → Prop
  | absent : Recased .absent .absent
  | literal (v : Value) : Recased (.literal v) (.literal v)
  | path {q q' : Path} : q.Recased q' → Recased (.path q) (.path q')

/-- The leaves are the same up to the case of header names in paths. -/
inductive Leaf.Recased : Leaf → Leaf → Prop
  | intro {p p' : Path} {c c' : Comparand} (o : Operator) (note : Option String) : p.Recased p' →
      c.Recased c' → Recased ⟨p, o, c, note⟩ ⟨p', o, c', note⟩

theorem Leaf.Recased.evaluate {ctx ctx' : Context} (h : NamesApart ctx.header)
    (hctx : ctx.Recased ctx') {l l' : Leaf} (hl : l.Recased l') :
    OutcomeUpTo EvalError.Recased (l.evaluate ctx) (l'.evaluate ctx') := by
  cases hl with
  | @intro p p' c c' o note hp hc =>
      have hoperands : (Leaf.operands ctx ⟨p, o, c, note⟩).Recased
          (Leaf.operands ctx' ⟨p', o, c', note⟩) := by
        refine ⟨hp, Context.resolve_recased h hctx hp, ?_, ?_⟩
        · cases hc with
          | absent | literal => exact .none
          | path hq => exact .some hq
        · cases hc with
          | absent | literal => rfl
          | path hq => exact congrArg some (Context.resolve_recased h hctx hq)
      exact Operands.apply_recased hoperands o

/-! ## 6. Keys that are looked up -/

namespace Context

variable {ctx : Context} {p : Path} {k : String} {ss : List Segment}

/-- What a path leads to whose first key asks for a header. -/
theorem resolve_header_iff (h : Value.KeysIncrease ctx.header)
    (hp : p.Spells .header (.key k :: ss)) (w : Value) :
    ctx.resolve p = .present w ↔ ∃ v, HeaderHas ctx.header k v ∧ meaning ss v = some w := by
  rw [ctx.resolve_of_spells hp, Resolved.ofOption_eq_present, Option.bind_eq_some_iff]
  simp only [entry?_eq_some_iff h]
  exact Iff.rfl

theorem exists_headerHas_iff (h : Value.KeysIncrease ctx.header) :
    (∃ v, HeaderHas ctx.header k v) ↔
      ∃ e ∈ ctx.header, Text.sameIgnoringCase e.1 k = true := by
  simp only [← header?_eq_some_iff h]
  exact exists_header?_iff

/-- A header is absent only if there is none whose name differs in case at most. -/
theorem resolve_header_eq_absent_iff (h : Value.KeysIncrease ctx.header)
    (hp : p.Spells .header [.key k]) :
    ctx.resolve p = .absent ↔ ¬ ∃ e ∈ ctx.header, Text.sameIgnoringCase e.1 k = true := by
  rw [Resolved.eq_absent_iff, ← exists_headerHas_iff h, not_exists]
  simp only [ne_eq, resolve_header_iff h hp]
  simp [meaning]

/-- The first key of any other path finds the entry spelled like it, or nothing. -/
theorem resolve_other {n : Namespace} (hn : n ≠ .header) (hp : p.Spells n (.key k :: ss)) :
    ctx.resolve p = .ofOption (((ctx.attributes n).lookup k).bind (meaning ss)) ∧
    (k ∉ (ctx.attributes n).map Prod.fst → ctx.resolve p = .absent) := by
  have hentry : ctx.entry? n k = (ctx.attributes n).lookup k := by
    cases n with
    | header => exact absurd rfl hn
    | subject | resource | path | body | query => rfl
  rw [ctx.resolve_of_spells hp, hentry]
  refine ⟨rfl, fun hk => ?_⟩
  rw [lookup_eq_none_of_not_mem hk]
  rfl

end Context

/-- A further key finds the entry spelled like it, or nothing. -/
theorem meaning_key_object (k : String) (ss : List Segment) (entries : List (String × Value)) :
    meaning (.key k :: ss) (.object entries) = (entries.lookup k).bind (meaning ss) ∧
    (k ∉ entries.map Prod.fst → meaning (.key k :: ss) (.object entries) = none) := by
  refine ⟨rfl, fun hk => ?_⟩
  show (entries.lookup k).bind (meaning ss) = none
  rw [lookup_eq_none_of_not_mem hk, Option.bind_none]

/-- **Header names ignore case, and nothing else does.** Where no two headers have names that differ
    in the case of ASCII letters only, a tree has the same verdict or an error of the same kind when
    letters change their case in the names of headers and in the keys by which paths ask for them. In
    any headers such a key finds the header spelled so, else the first in the order of bytes of those
    that differ in case only, and nothing if there is none. The first keys of other paths, and all
    further keys, find the entry spelled like them or nothing. -/
theorem header_names_fold (ctx : Context) :
    (NamesApart ctx.header → ∀ {ctx' : Context} {c c' : Condition}, ctx.Recased ctx' →
      c.Alike Leaf.Recased c' →
      OutcomeUpTo EvalError.Recased (c.evaluate ctx) (c'.evaluate ctx')) ∧
    (Value.KeysIncrease ctx.header → ∀ {p : Path} {k : String} {ss : List Segment},
      p.Spells .header (.key k :: ss) →
      (∀ w, ctx.resolve p = .present w ↔
        ∃ v, HeaderHas ctx.header k v ∧ meaning ss v = some w) ∧
      ((∃ v, HeaderHas ctx.header k v) ↔
        ∃ e ∈ ctx.header, Text.sameIgnoringCase e.1 k = true) ∧
      (ss = [] → (ctx.resolve p = .absent ↔
        ¬ ∃ e ∈ ctx.header, Text.sameIgnoringCase e.1 k = true))) ∧
    (∀ {p : Path} {n : Namespace} {k : String} {ss : List Segment}, n ≠ .header →
      p.Spells n (.key k :: ss) →
      ctx.resolve p = .ofOption (((ctx.attributes n).lookup k).bind (meaning ss)) ∧
      (k ∉ (ctx.attributes n).map Prod.fst → ctx.resolve p = .absent)) ∧
    ∀ {p : Path} {n : Namespace} {k k' : String} {ss ss' : List Segment},
      p.Spells n (.key k :: (ss ++ .key k' :: ss')) →
      ctx.resolve p = .ofOption
        ((ctx.entry? n k).bind (ss.foldr Segment.meaning (meaning (.key k' :: ss')))) ∧
      ∀ entries,
        meaning (.key k' :: ss') (.object entries) = (entries.lookup k').bind (meaning ss') ∧
        (k' ∉ entries.map Prod.fst → meaning (.key k' :: ss') (.object entries) = none) := by
  refine ⟨fun h ctx' c c' hctx hc => hc.evaluate fun l l' hl => hl.evaluate h hctx, ?_,
    fun hn hp => Context.resolve_other hn hp, ?_⟩
  · intro hheader p k ss hp
    refine ⟨Context.resolve_header_iff hheader hp, Context.exists_headerHas_iff hheader, ?_⟩
    rintro rfl
    exact Context.resolve_header_eq_absent_iff hheader hp
  · intro p n k k' ss ss' hp
    refine ⟨?_, meaning_key_object k' ss'⟩
    rw [ctx.resolve_of_spells hp, meaning, List.foldr_append]
    rfl

/-! ## One request in two spellings -/

/-- The request of an administrator, with the given headers. -/
def tenantRequest (headers : Attributes) : Context where
  subject := [("role", .string "admin")]
  resource := []
  path := []
  body := []
  query := []
  header := headers

/-- A tenant as a header names it. -/
def acme : Value := .object [("id", .string "acme")]

/-- The headers of the request, in the order of their names. -/
def tenantHeaders : Attributes := [("Role", .string "admin"), ("tenant", acme)]

/-- The same headers in other letters, which change places. -/
def tenantHeadersRecased : Attributes := [("TENANT", acme), ("role", .string "admin")]

/-- Asks for the tenant and for the subject's role. -/
def tenantCondition (tenant role : Path) : Condition :=
  .branch .and [
    .leaf ⟨tenant, .equals, .literal (.string "acme"), none⟩ none,
    .leaf ⟨⟨"subject.role"⟩, .equals, .path role, none⟩ none] none

/-- The tree holds for both spellings of the request, each asked for in letters of its own. The
    subject's role, and the tenant's identifier, have names that are told apart by case. -/
theorem header_names_fold_tenant :
    NamesApart tenantHeaders ∧
    (tenantRequest tenantHeaders).Recased (tenantRequest tenantHeadersRecased) ∧
    (tenantCondition ⟨"header.Tenant.id"⟩ ⟨"header.ROLE"⟩).Alike Leaf.Recased
      (tenantCondition ⟨"header.tENANT.id"⟩ ⟨"header.role"⟩) ∧
    (tenantCondition ⟨"header.tENANT.id"⟩ ⟨"header.role"⟩).evaluate
      (tenantRequest tenantHeadersRecased) = .ok true ∧
    HeaderHas tenantHeaders "Tenant" acme ∧
    (tenantRequest tenantHeaders).resolve ⟨"subject.ROLE"⟩ = .absent ∧
    meaning [.key "ID"] acme = none := by
  have hapart : NamesApart tenantHeaders := by decide +kernel
  have hheader : Value.KeysIncrease tenantHeaders := by decide +kernel
  have hctx : (tenantRequest tenantHeaders).Recased (tenantRequest tenantHeadersRecased) := by
    refine ⟨by decide +kernel, fun n hn => ?_⟩
    cases n with
    | header => exact absurd rfl hn
    | subject | resource | path | body | query => rfl
  have hdot : ∀ c ∈ ['.', 'i', 'd'].head?, Cursor.endsKey c = true := by
    intro c hc
    cases hc
    rfl
  have hend : ∀ c ∈ ([] : List Char).head?, Cursor.endsKey c = true := by
    intro c hc
    cases hc
  have htenant : Path.Recased ⟨"header.Tenant.id"⟩ ⟨"header.tENANT.id"⟩ :=
    .header "Tenant".toList "tENANT".toList ['.', 'i', 'd'] (by decide +kernel)
      (by decide +kernel) hdot (by decide +kernel) (by decide +kernel)
  have hrole : Path.Recased ⟨"header.ROLE"⟩ ⟨"header.role"⟩ :=
    .header "ROLE".toList "role".toList [] (by decide +kernel) (by decide +kernel) hend
      (by decide +kernel) (by decide +kernel)
  have halike : (tenantCondition ⟨"header.Tenant.id"⟩ ⟨"header.ROLE"⟩).Alike Leaf.Recased
      (tenantCondition ⟨"header.tENANT.id"⟩ ⟨"header.role"⟩) :=
    .branch (.cons (.leaf (.intro _ _ htenant (.literal _)))
      (.cons (.leaf (.intro _ _ (.same _) (.path hrole))) .nil))
  have hfirstKey : Path.Spells ⟨"header.Tenant"⟩ .header [.key "Tenant"] :=
    Path.spells_iff.mpr (by decide +kernel)
  have hotherKey : Path.Spells ⟨"subject.ROLE"⟩ .subject [.key "ROLE"] :=
    Path.spells_iff.mpr (by decide +kernel)
  have hfurtherKey : Path.Spells ⟨"header.Tenant.ID"⟩ .header
      (.key "Tenant" :: ([] ++ [.key "ID"])) := Path.spells_iff.mpr (by decide +kernel)
  obtain ⟨htree, hfirst, hother, hfurther⟩ := header_names_fold (tenantRequest tenantHeaders)
  have hverdict := htree hapart hctx halike
  have hholds : (tenantCondition ⟨"header.Tenant.id"⟩ ⟨"header.ROLE"⟩).evaluate
      (tenantRequest tenantHeaders) = .ok true := by decide +kernel
  rw [hholds] at hverdict
  obtain ⟨hpresent, _, _⟩ := hfirst hheader hfirstKey
  obtain ⟨v, hv, hacme⟩ := (hpresent acme).mp (by decide +kernel)
  cases hacme
  obtain ⟨_, habsent⟩ := hother (by decide) hotherKey
  obtain ⟨_, hexact⟩ := hfurther hfurtherKey
  refine ⟨hapart, hctx, halike, ?_, hv, habsent (by decide), (hexact _).2 (by decide)⟩
  generalize (tenantCondition ⟨"header.tENANT.id"⟩ ⟨"header.role"⟩).evaluate
    (tenantRequest tenantHeadersRecased) = x at hverdict ⊢
  cases hverdict
  rfl

end Gatehouse
