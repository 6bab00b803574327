import XPath.Proofs.Descent.Exactness
import XPath.Proofs.Printer.Consistent
import XPath.Proofs.Printer.Derives

/-! A tree that is written down is read back. -/
namespace XPath

/-- Whether a name without a colon stands for a namespace. -/
def Binds (resolver : Option Resolver) (p uri : String) : Prop :=
  IsNCName p ∧ resolver.bind (·.lookup p) = some uri

theorem tokenize_print {e : Expr} {short : String → String} (hwf : e.WellFormed)
    (hshort : ∀ uri, e.Mentions uri → IsNCName (short uri)) :
    tokenize (e.print short) = e.tokens short ++ [.mark .endOfInput] := by
  have hconsistent := fluent_tokens hwf hshort {} [] rfl (fun _ => trivial) (by simp)
  rw [List.append_nil] at hconsistent
  refine tokenize_eq_iff.mpr ⟨hconsistent, ?_⟩
  rw [Expr.print, String.toList_ofList]
  exact hconsistent.spaced.layout

/-- Every tree that can be written down, with the namespaces in it bound to names, has a written form.
Each of its written forms is read back as the same tree, if its calls are allowed and the options let
it nest as deeply as it does. -/
theorem parse_print {resolver : Option Resolver} {e : Expr} (hwf : e.WellFormed)
    (hbound : ∀ uri, e.Mentions uri → ∃ p, Binds resolver p uri) :
    (∃ short : String → String, ∀ uri, e.Mentions uri → Binds resolver (short uri) uri) ∧
    ∀ short : String → String, (∀ uri, e.Mentions uri → Binds resolver (short uri) uri) →
      ∀ (functions : Registry) (options : Options), e.depth ≤ options.maxDepth →
        (∀ name count, e.Calls name count →
          Setting.Allows ⟨resolver, functions, options⟩ name count) →
        Descent.parse ⟨resolver, functions, options⟩ (e.print short) = .ok e := by
  constructor
  · have htotal (uri : String) : ∃ p, e.Mentions uri → Binds resolver p uri := by
      by_cases huri : e.Mentions uri
      · obtain ⟨p, hp⟩ := hbound uri huri
        exact ⟨p, fun _ => hp⟩
      · exact ⟨"", fun h => absurd h huri⟩
    choose short hshort using htotal
    exact ⟨short, hshort⟩
  · intro short hshort functions options hdepth hcalls
    have htokens := tokenize_print hwf fun uri huri => (hshort uri huri).1
    obtain ⟨d, hd, hderives⟩ := within_tokens hwf hshort hcalls
    exact Descent.parse_of_derives htokens hderives (Nat.le_trans hd hdepth)

/-- The path `/child::s:item["it's"]`. -/
def shopItems : Expr :=
  .path true [⟨.child, .name "item" (some "urn:shop"), [.literal "it's"]⟩]

theorem parse_print_count_items :
    (Expr.call "count" [shopItems]).WellFormed ∧
    (∀ uri, (Expr.call "count" [shopItems]).Mentions uri →
      Binds (some (.firstOf [("s", "urn:shop")])) "s" uri) ∧
    Descent.parse ⟨some (.firstOf [("s", "urn:shop")]), .core, {}⟩
      ((Expr.call "count" [shopItems]).print fun _ => "s") = .ok (.call "count" [shopItems]) := by
  have hcount : IsNCName "count" := by decide
  have hitem : IsNCName "item" := by decide
  have hliteral : (Expr.literal "it's").WellFormed :=
    Expr.wellFormed_iff.mpr ⟨Or.inr (by decide), by simp [Expr.children]⟩
  have hitems : shopItems.WellFormed :=
    Expr.wellFormed_iff.mpr ⟨⟨Or.inl rfl, by simpa [NodeTest.Proper] using hitem⟩,
      by simpa [Expr.children, shopItems] using hliteral⟩
  have hwf : (Expr.call "count" [shopItems]).WellFormed :=
    Expr.wellFormed_iff.mpr ⟨⟨⟨_, .plain hcount⟩, by decide⟩,
      by simpa [Expr.children] using hitems⟩
  have hparts (p : Expr) (hp : p.Part (.call "count" [shopItems])) :
      p = .call "count" [shopItems] ∨ p = shopItems ∨ p = .literal "it's" := by
    rcases Expr.part_iff.mp hp with rfl | ⟨c, hc, hp⟩
    · exact Or.inl rfl
    obtain rfl := List.mem_singleton.mp hc
    rcases Expr.part_iff.mp hp with rfl | ⟨c, hc, hp⟩
    · exact Or.inr (Or.inl rfl)
    obtain rfl := List.mem_singleton.mp hc
    rcases Expr.part_iff.mp hp with rfl | ⟨c, hc, -⟩
    · exact Or.inr (Or.inr rfl)
    · cases hc
  have hbinds (uri : String) (huri : (Expr.call "count" [shopItems]).Mentions uri) :
      Binds (some (.firstOf [("s", "urn:shop")])) "s" uri := by
    obtain ⟨p, hp, step, hstep, huri⟩ := huri
    rcases hparts p hp with rfl | rfl | rfl
    · cases hstep
    · obtain rfl := List.mem_singleton.mp hstep
      obtain rfl := Option.some.inj huri
      exact ⟨by decide, by decide⟩
    · cases hstep
  have hcalls (name : String) (count : Nat) (h : (Expr.call "count" [shopItems]).Calls name count) :
      Setting.Allows ⟨some (.firstOf [("s", "urn:shop")]), .core, {}⟩ name count := by
    obtain ⟨args, hp, rfl⟩ := h
    rcases hparts _ hp with heq | heq | heq
    · obtain ⟨rfl, rfl⟩ := Expr.call.inj heq
      intro _
      decide
    · cases heq
    · cases heq
  have hprints := (parse_print hwf fun uri huri => ⟨"s", hbinds uri huri⟩).2
  exact ⟨hwf, hbinds, hprints _ hbinds .core {} (by decide) hcalls⟩

end XPath
