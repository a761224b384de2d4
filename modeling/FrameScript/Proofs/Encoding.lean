import FrameScript.Proofs.Documents

set_option autoImplicit false

/-!
# Sources are read back from their documents

Reading inverts encoding. The proof follows the nesting: what is written for a part is lower than
what is written for the whole, so the fuel of the reader lasts, and a node is read back if its parts
are. Only sources that were read themselves have this property, since resolved variables, stages of
calls and types without a written form are lost in documents, and so are infinities.

## Main definitions

* `Expr.isFinite`, `Source.isFinite` — whether all doubles are finite.
* `Expr.IsKept`, `Stmt.IsKept`, `FunctionDecl.IsKept`, `Source.IsKept` — what the round trip keeps.

## Main results

* `Expr.obtains_decode`, `Stmt.obtains_decode`, `Source.obtains_decode` — what is written for an
  expression, a statement and a source is read back, also after tables were put in another order.
* `Source.decoding_inverts_encoding` — every source that was read from some document is read back
  from its own.
-/

namespace FrameScript

open Document Decoder

/-! ## Expressions -/

theorem exprsToDocuments_eq (es : List Expr) : exprsToDocuments es = es.map Expr.toDocument := by
  induction es with
  | nil => rfl
  | cons e es ih => simp only [exprsToDocuments, ih, List.map_cons]

theorem namedToDocuments_eq (entries : List (String × Expr)) :
    namedToDocuments entries =
      entries.map fun entry => .list [ofText entry.1, entry.2.toDocument] := by
  induction entries with
  | nil => rfl
  | cons entry entries ih => simp only [namedToDocuments, ih, List.map_cons]

/-- Every expression but the null is a choice with a content. -/
theorem Expr.toDocument_eq (e : Expr) :
    e = .null ∨ ∃ form content, e.toDocument = ofChoice form content := by
  cases e with
  | null => exact .inl rfl
  | _ => exact .inr ⟨_, _, rfl⟩

theorem stmtsToDocuments_eq (ss : List Stmt) : stmtsToDocuments ss = ss.map Stmt.toDocument := by
  induction ss with
  | nil => rfl
  | cons s ss ih => simp only [stmtsToDocuments, ih, List.map_cons]

/-- Every statement but those without parts is a choice with a content. -/
theorem Stmt.toDocument_eq (s : Stmt) :
    s = .leave ∨ s = .next ∨ ∃ form content, s.toDocument = ofChoice form content := by
  cases s with
  | leave => exact .inl rfl
  | next => exact .inr (.inl rfl)
  | _ => exact .inr (.inr ⟨_, _, rfl⟩)

/-- The document of a size. -/
def sizeDocument (size : Nat) : Document :=
  .ofScalar (.int (Int.ofNat size))

namespace FunctionDecl

variable (decl : FunctionDecl)

/-- The entries of the document of a function declaration. -/
def entries : List (String × Document) :=
  [("name", .ofText decl.name), ("visibility", decl.visibility.toDocument),
    ("params", .list (decl.params.map Param.toDocument)),
    ("returns", .list (decl.returns.map Document.ofTy)),
    ("body", .list (stmtsToDocuments decl.body))] ++
    sizeEntry "stack_frame_size" decl.stackSize? ++ sizeEntry "temp_frame_size" decl.tempSize?

theorem entries_nodup : (decl.entries.map (·.1)).Nodup := by
  obtain ⟨name, visibility, params, returns, body, stackSize?, tempSize?⟩ := decl
  cases stackSize? <;> cases tempSize? <;> simp [entries, sizeEntry]

theorem valueOf?_entries :
    ["name", "visibility", "params", "returns", "body", "stack_frame_size", "temp_frame_size"].map
        (valueOf? · decl.entries) =
      [some (.ofText decl.name), some decl.visibility.toDocument,
        some (.list (decl.params.map Param.toDocument)),
        some (.list (decl.returns.map Document.ofTy)),
        some (.list (stmtsToDocuments decl.body)), decl.stackSize?.map sizeDocument,
        decl.tempSize?.map sizeDocument] := by
  obtain ⟨name, visibility, params, returns, body, stackSize?, tempSize?⟩ := decl
  cases stackSize? <;> cases tempSize? <;> simp [entries, sizeEntry, sizeDocument, valueOf?]

end FunctionDecl

/-- Whether a node of an expression is no infinity and no NaN. -/
def Expr.isFinite : Expr → Bool
  | .float x => x.isFinite
  | _ => true

/-- An expression that the round trip keeps: it is as it was read, and its double is finite. -/
def Expr.IsKept (e : Expr) : Prop :=
  e.IsRaw ∧ e.isFinite = true

section

variable {f : Document → Document} (hf : Presentation f) {reach : Nat}

include hf

theorem height_lt_exprs {e : Expr} {es : List Expr} (he : e ∈ es) :
    (f e.toDocument).height < (f (.list (exprsToDocuments es))).height := by
  rw [exprsToDocuments_eq]
  exact hf.height_lt_list (List.mem_map_of_mem he)

theorem height_lt_named {e : Expr} {entries : List (String × Expr)} (he : e ∈ entries.map (·.2)) :
    (f e.toDocument).height < (f (.list (namedToDocuments entries))).height := by
  obtain ⟨entry, hentry, rfl⟩ := List.mem_map.mp he
  rw [namedToDocuments_eq]
  have hpair : (f entry.2.toDocument).height <
      (f (.list [ofText entry.1, entry.2.toDocument])).height := hf.height_lt_list (by simp)
  exact hpair.trans (hf.height_lt_list (List.mem_map.mpr ⟨entry, hentry, rfl⟩))

/-- The document of a part is lower than that of the whole. -/
theorem Expr.height_lt_of_part {e part : Expr} (hpart : part ∈ e.parts) :
    (f part.toDocument).height < (f e.toDocument).height := by
  cases e with
  | array elem items =>
    have hlist : (f part.toDocument).height < (f (.list (exprsToDocuments items))).height :=
      height_lt_exprs hf hpart
    rw [Expr.toDocument, hf.height_choice, Nat.lt_succ_iff]
    exact hlist.le.trans (hf.height_lt_entries "items" (by simp) (by simp)).le
  | connector _ args | call _ args _ =>
    have hlist : (f part.toDocument).height < (f (.list (exprsToDocuments args))).height :=
      height_lt_exprs hf hpart
    rw [Expr.toDocument, hf.height_choice, Nat.lt_succ_iff]
    exact hlist.le.trans (hf.height_lt_entries "args" (by simp) (by simp)).le
  | map entries =>
    rw [Expr.toDocument, hf.height_choice, Nat.lt_succ_iff]
    exact (height_lt_named hf hpart).le
  | struct name fields =>
    rw [Expr.toDocument, hf.height_choice, Nat.lt_succ_iff]
    exact (height_lt_named hf hpart).le.trans
      (hf.height_lt_entries "fields" (by simp) (by simp)).le
  | message payload =>
    obtain rfl := List.mem_singleton.mp hpart
    rw [Expr.toDocument, hf.height_choice, Nat.lt_succ_iff]
  | index base key =>
    rw [Expr.toDocument, hf.height_choice, Nat.lt_succ_iff]
    rcases List.mem_pair.mp hpart with rfl | rfl
    · exact (hf.height_lt_entries "base" (by simp) (by simp)).le
    · exact (hf.height_lt_entries "index" (by simp) (by simp)).le
  | field base name =>
    obtain rfl := List.mem_singleton.mp hpart
    rw [Expr.toDocument, hf.height_choice, Nat.lt_succ_iff]
    exact (hf.height_lt_entries "base" (by simp) (by simp)).le
  | unary op operand =>
    obtain rfl := List.mem_singleton.mp hpart
    rw [Expr.toDocument, hf.height_choice, Nat.lt_succ_iff]
    exact (hf.height_lt_entries "expr" (by simp) (by simp)).le
  | cast operand target =>
    obtain rfl := List.mem_singleton.mp hpart
    rw [Expr.toDocument, hf.height_choice, Nat.lt_succ_iff]
    exact (hf.height_lt_entries "expr" (by simp) (by simp)).le
  | binary op left right =>
    rw [Expr.toDocument, hf.height_choice, Nat.lt_succ_iff]
    rcases List.mem_pair.mp hpart with rfl | rfl
    · exact (hf.height_lt_entries "lhs" (by simp) (by simp)).le
    · exact (hf.height_lt_entries "rhs" (by simp) (by simp)).le
  | action target name args stage =>
    rw [Expr.toDocument, hf.height_choice, Nat.lt_succ_iff]
    rcases List.mem_cons.mp hpart with rfl | hargs
    · exact (hf.height_lt_entries "connector" (by simp) (by simp)).le
    · exact (height_lt_exprs hf hargs).le.trans
        (hf.height_lt_entries "args" (by simp) (by simp)).le
  | _ => cases hpart

theorem obtains_ty {ty : Ty} (hty : ty.IsWritten) :
    Obtains reach (Ty.decode (f (.ofTy ty))) ty := by
  rw [ofTy, hf.text]
  exact obtains_value rfl hty

theorem obtains_exprs {decode : Document → Decoder Expr} {es : List Expr}
    (h : ∀ e ∈ es, Obtains reach (decode (f e.toDocument)) e) :
    Obtains reach (listOf decode (f (.list (exprsToDocuments es)))) es := by
  rw [exprsToDocuments_eq]
  exact hf.obtains_listOf h

theorem obtains_namedExprs {decode : Document → Decoder Expr} {entries : List (String × Expr)}
    (h : ∀ e ∈ entries.map (·.2), Obtains reach (decode (f e.toDocument)) e) :
    Obtains reach (listOf (named decode) (f (.list (namedToDocuments entries)))) entries := by
  rw [namedToDocuments_eq]
  refine hf.obtains_listOf fun entry hentry => ?_
  rw [hf.list, List.map_cons, List.map_singleton, hf.text]
  exact obtains_named (h entry.2 (List.mem_map_of_mem hentry))

theorem obtains_unaryOp (op : UnaryOp) :
    Obtains reach (UnaryOp.decode (f (ofText op.symbol))) op := by
  rw [hf.text]
  cases op <;> exact fun _ _ _ _ => rfl

theorem obtains_binaryOp (op : BinaryOp) :
    Obtains reach (BinaryOp.decode (f (ofText op.symbol))) op := by
  rw [hf.text]
  cases op <;> exact fun _ _ _ _ => rfl

/-- The content of an expression is read back if its parts are. -/
theorem Expr.obtains_decodeForm {expr : Document → Decoder Expr} {e : Expr} (he : e.IsKept)
    (hexpr : ∀ part ∈ e.parts, Obtains reach (expr (f part.toDocument)) part) {form : String}
    {content : Document} (hcontent : e.toDocument = ofChoice form content)
    (hreach : (f content).height < reach) :
    Obtains reach (decodeForm expr form (f content)) e := by
  obtain ⟨hraw, hfinite⟩ := he
  cases e with
  | int n =>
    cases hcontent
    refine .bind (a := n) ?_ (.pure _)
    rw [hf.int]
    exact obtains_value rfl (Integer.ofInt?_toInt n)
  | float x =>
    cases hcontent
    refine .bind (a := x) ?_ (.pure _)
    rw [hf.float hfinite]
    exact obtains_value rfl rfl
  | bool b =>
    cases hcontent
    refine .bind (a := b) ?_ (.pure _)
    rw [hf.bool]
    exact obtains_value rfl rfl
  | null => cases hcontent
  | str s | xml s =>
    cases hcontent
    exact .bind (hf.obtains_text s) (.pure _)
  | json doc =>
    cases hcontent
    rw [hf.free hraw] at hreach ⊢
    exact .bind (obtains_json hraw hreach) (.pure _)
  | var v =>
    cases hcontent
    obtain ⟨name, slot?⟩ := v
    obtain rfl : slot? = none := hraw
    exact .bind (hf.obtains_text name) (.pure _)
  | array elem items =>
    cases hcontent
    rw [decodeForm]
    refine hf.obtains_record (by simp) (by simp [valueOf?]; rfl) ?_
    exact .bind (obtains_ty hf hraw) (.bind (obtains_exprs hf hexpr) (.pure _))
  | map entries =>
    cases hcontent
    exact .bind (obtains_namedExprs hf hexpr) (.pure _)
  | struct name fields =>
    cases hcontent
    rw [decodeForm]
    refine hf.obtains_record (by simp) (by simp [valueOf?]; rfl) ?_
    exact .bind (hf.obtains_text name) (.bind (obtains_namedExprs hf hexpr) (.pure _))
  | connector name args =>
    cases hcontent
    rw [decodeForm]
    refine hf.obtains_record (by simp) (by simp [valueOf?]; rfl) ?_
    exact .bind (hf.obtains_text name) (.bind (obtains_exprs hf hexpr) (.pure _))
  | message payload =>
    cases hcontent
    exact .bind (hexpr payload (by simp [parts])) (.pure _)
  | index base key =>
    cases hcontent
    rw [decodeForm]
    refine hf.obtains_record (by simp) (by simp [valueOf?]; rfl) ?_
    exact .bind (hexpr base (by simp [parts])) (.bind (hexpr key (by simp [parts])) (.pure _))
  | field base name =>
    cases hcontent
    rw [decodeForm]
    refine hf.obtains_record (by simp) (by simp [valueOf?]; rfl) ?_
    exact .bind (hexpr base (by simp [parts])) (.bind (hf.obtains_text name) (.pure _))
  | unary op operand =>
    cases hcontent
    rw [decodeForm]
    refine hf.obtains_record (by simp) (by simp [valueOf?]; rfl) ?_
    exact .bind (obtains_unaryOp hf op) (.bind (hexpr operand (by simp [parts])) (.pure _))
  | binary op left right =>
    cases hcontent
    rw [decodeForm]
    refine hf.obtains_record (by simp) (by simp [valueOf?]; rfl) ?_
    exact .bind (obtains_binaryOp hf op) (.bind (hexpr left (by simp [parts]))
      (.bind (hexpr right (by simp [parts])) (.pure _)))
  | cast operand target =>
    cases hcontent
    rw [decodeForm]
    refine hf.obtains_record (by simp) (by simp [valueOf?]; rfl) ?_
    exact .bind (hexpr operand (by simp [parts])) (.bind (obtains_ty hf hraw) (.pure _))
  | call callee args stage =>
    cases hcontent
    obtain rfl : stage = 0 := hraw
    rw [decodeForm]
    refine hf.obtains_record (by simp) (by simp [valueOf?]; rfl) ?_
    exact .bind (hf.obtains_text callee) (.bind (obtains_exprs hf hexpr) (.pure _))
  | action target name args stage =>
    cases hcontent
    obtain rfl : stage = 0 := hraw
    rw [decodeForm]
    refine hf.obtains_record (by simp) (by simp [valueOf?]; rfl) ?_
    refine .bind (hexpr target (by simp [parts])) (.bind (hf.obtains_text name) ?_)
    refine .bind ?_ (.pure _)
    exact obtains_exprs hf fun arg harg => hexpr arg (List.mem_cons_of_mem _ harg)

namespace Expr

theorem obtains_decodeWith {e : Expr} (he : ∀ x ∈ e.subterms, x.IsKept) {fuel : Nat}
    (hfuel : (f e.toDocument).height < fuel) (hreach : fuel ≤ reach) :
    Obtains reach (decodeWith fuel (f e.toDocument)) e := by
  induction fuel generalizing e with
  | zero => cases hfuel
  | succ fuel ih =>
    rcases toDocument_eq e with rfl | ⟨form, content, heq⟩
    · rw [toDocument, hf.text]
      exact fun _ _ _ _ => rfl
    · obtain ⟨hself, hparts⟩ := forall_subterms_iff.mp he
      have hpart : ∀ part ∈ e.parts, Obtains reach (decodeWith fuel (f part.toDocument)) part := by
        refine fun part hpart => ih (hparts part hpart) ?_ (Nat.le_of_succ_le hreach)
        exact (height_lt_of_part hf hpart).trans_le (Nat.lt_succ_iff.mp hfuel)
      have hcontent : (f content).height < reach := by
        rw [heq, hf.height_choice] at hfuel
        omega
      have hform := obtains_decodeForm hf hself hpart heq hcontent
      rw [heq, hf.choice]
      exact .bind (obtains_variant (f content)) hform

theorem obtains_decode {e : Expr} (he : ∀ x ∈ e.subterms, x.IsKept)
    (hreach : (f e.toDocument).height < reach) : Obtains reach (decode (f e.toDocument)) e :=
  .bind .reach_eq (obtains_decodeWith hf he hreach le_rfl)

end Expr

/-! ## Statements -/

theorem Expr.obtains_orAbsent {e : Expr} (h : Obtains reach (Expr.decode (f e.toDocument)) e) :
    Obtains reach (orAbsent Expr.decode (some (f e.toDocument))) (some e) := by
  rcases toDocument_eq e with rfl | ⟨form, content, heq⟩
  · rw [toDocument, hf.text] at h ⊢
    exact Document.obtains_orAbsent rfl rfl h
  · rw [heq, hf.choice] at h ⊢
    exact Document.obtains_orAbsent rfl rfl h

theorem Target.height_lt_of_part {target : Target} {part : Expr} (hpart : part ∈ target.parts) :
    (f part.toDocument).height < (f target.toDocument).height := by
  cases target with
  | var v => cases hpart
  | index base key =>
    rw [toDocument, hf.height_choice, Nat.lt_succ_iff]
    rcases List.mem_pair.mp hpart with rfl | rfl
    · exact (hf.height_lt_entries "base" (by simp) (by simp)).le
    · exact (hf.height_lt_entries "index" (by simp) (by simp)).le
  | field base name =>
    obtain rfl := List.mem_singleton.mp hpart
    rw [toDocument, hf.height_choice, Nat.lt_succ_iff]
    exact (hf.height_lt_entries "base" (by simp) (by simp)).le

theorem Target.obtains_decode {target : Target} (htarget : target.IsRaw)
    (hparts : ∀ e ∈ target.parts, Obtains reach (Expr.decode (f e.toDocument)) e) :
    Obtains reach (Target.decode (f target.toDocument)) target := by
  cases target with
  | var v =>
    obtain ⟨name, slot?⟩ := v
    obtain rfl : slot? = none := htarget
    rw [toDocument, hf.choice]
    exact .bind (obtains_variant _) (.bind (hf.obtains_text name) (.pure _))
  | index base key =>
    rw [toDocument, hf.choice]
    refine .bind (obtains_variant _) (hf.obtains_record (by simp) (by simp [valueOf?]; rfl) ?_)
    exact .bind (hparts base (by simp [parts])) (.bind (hparts key (by simp [parts])) (.pure _))
  | field base name =>
    rw [toDocument, hf.choice]
    refine .bind (obtains_variant _) (hf.obtains_record (by simp) (by simp [valueOf?]; rfl) ?_)
    exact .bind (hparts base (by simp [parts])) (.bind (hf.obtains_text name) (.pure _))

namespace Stmt

theorem height_lt_of_expr {s : Stmt} {e : Expr} (he : e ∈ s.exprs) :
    (f e.toDocument).height < (f s.toDocument).height := by
  cases s with
  | define name ty init? slot? =>
    obtain rfl : init? = some e := by simpa [exprs] using he
    rw [toDocument, hf.height_choice, Nat.lt_succ_iff]
    exact (hf.height_lt_entries "init" (by simp) (by simp)).le
  | assign targets value =>
    rw [toDocument, hf.height_choice, Nat.lt_succ_iff]
    rcases List.mem_append.mp he with hpart | hlast
    · obtain ⟨target, htarget, hpart⟩ := List.mem_flatMap.mp hpart
      refine (Target.height_lt_of_part hf hpart).le.trans ?_
      exact (hf.height_lt_list (List.mem_map_of_mem htarget)).le.trans
        (hf.height_lt_entries "targets" (by simp) (by simp)).le
    · obtain rfl := List.mem_singleton.mp hlast
      exact (hf.height_lt_entries "value" (by simp) (by simp)).le
  | branch cond yes no =>
    obtain rfl := List.mem_singleton.mp he
    rw [toDocument, hf.height_choice, Nat.lt_succ_iff]
    exact (hf.height_lt_entries "cond" (by split <;> simp) (by simp)).le
  | loop cond body =>
    obtain rfl := List.mem_singleton.mp he
    rw [toDocument, hf.height_choice, Nat.lt_succ_iff]
    exact (hf.height_lt_entries "cond" (by simp) (by simp)).le
  | result values =>
    rw [toDocument, hf.height_choice, Nat.lt_succ_iff]
    exact (height_lt_exprs hf he).le
  | run e =>
    obtain rfl := List.mem_singleton.mp he
    rw [toDocument, hf.height_choice, Nat.lt_succ_iff]
  | leave | next | block => cases he

theorem height_lt_stmts {s : Stmt} {ss : List Stmt} (hs : s ∈ ss) :
    (f s.toDocument).height < (f (.list (stmtsToDocuments ss))).height := by
  rw [stmtsToDocuments_eq]
  exact hf.height_lt_list (List.mem_map_of_mem hs)

theorem height_lt_of_inner {s inner : Stmt} (hinner : inner ∈ s.inner) :
    (f inner.toDocument).height < (f s.toDocument).height := by
  cases s with
  | branch cond yes no =>
    rw [toDocument, hf.height_choice, Nat.lt_succ_iff]
    rcases List.mem_append.mp hinner with hyes | hno
    · exact (height_lt_stmts hf hyes).le.trans
        (hf.height_lt_entries "then" (by split <;> simp) (by simp)).le
    · have hsome : no.isEmpty = false := by
        cases no with
        | nil => cases hno
        | cons => rfl
      exact (height_lt_stmts hf hno).le.trans
        (hf.height_lt_entries "else" (by simp [hsome]) (by simp [hsome])).le
  | loop cond body =>
    rw [toDocument, hf.height_choice, Nat.lt_succ_iff]
    have hbody : inner ∈ body := hinner
    exact (height_lt_stmts hf hbody).le.trans
      (hf.height_lt_entries "body" (by simp) (by simp)).le
  | block body =>
    rw [toDocument, hf.height_choice, Nat.lt_succ_iff]
    exact (height_lt_stmts hf hinner).le
  | _ => cases hinner

theorem obtains_stmts {decode : Document → Decoder Stmt} {ss : List Stmt}
    (h : ∀ s ∈ ss, Obtains reach (decode (f s.toDocument)) s) :
    Obtains reach (listOf decode (f (.list (stmtsToDocuments ss)))) ss := by
  rw [stmtsToDocuments_eq]
  exact hf.obtains_listOf h

/-- The content of a statement is read back if its expressions and inner statements are. -/
theorem obtains_decodeForm {stmt : Document → Decoder Stmt} {s : Stmt} (hs : s.IsRaw)
    (hexprs : ∀ e ∈ s.exprs, Obtains reach (Expr.decode (f e.toDocument)) e)
    (hinner : ∀ inner ∈ s.inner, Obtains reach (stmt (f inner.toDocument)) inner) {form : String}
    {content : Document} (hcontent : s.toDocument = ofChoice form content) :
    Obtains reach (decodeForm stmt form (f content)) s := by
  cases s with
  | define name ty init? slot? =>
    obtain ⟨hty, rfl⟩ := hs
    cases hcontent
    rw [decodeForm]
    cases init? with
    | none =>
      refine hf.obtains_record (by simp) (by simp [valueOf?]; rfl) ?_
      exact .bind (hf.obtains_text name) (.bind (obtains_ty hf hty) (.bind (.pure none) (.pure _)))
    | some init =>
      refine hf.obtains_record (by simp) (by simp [valueOf?]; rfl) ?_
      refine .bind (hf.obtains_text name) (.bind (obtains_ty hf hty) (.bind ?_ (.pure _)))
      exact Expr.obtains_orAbsent hf (hexprs init (by simp [exprs]))
  | assign targets value =>
    cases hcontent
    rw [decodeForm]
    refine hf.obtains_record (by simp) (by simp [valueOf?]; rfl) ?_
    refine .bind ?_ (.bind (hexprs value (by simp [exprs])) (.pure _))
    refine hf.obtains_listOf fun target htarget => Target.obtains_decode hf (hs target htarget) ?_
    intro e he
    exact hexprs e (List.mem_append_left _ (List.mem_flatMap.mpr ⟨target, htarget, he⟩))
  | branch cond yes no =>
    cases hcontent
    rw [decodeForm]
    have hcond := hexprs cond (by simp [exprs])
    have hyes := obtains_stmts hf fun s hs => hinner s (List.mem_append_left _ hs)
    have hno := obtains_stmts hf fun s hs => hinner s (List.mem_append_right yes hs)
    cases no with
    | nil =>
      refine hf.obtains_record (by simp) (by simp [valueOf?]; rfl) ?_
      exact .bind hcond (.bind hyes (.bind (.pure []) (.pure _)))
    | cons first rest =>
      refine hf.obtains_record (by simp) (by simp [valueOf?]; rfl) ?_
      exact .bind hcond (.bind hyes (.bind hno (.pure _)))
  | loop cond body =>
    cases hcontent
    rw [decodeForm]
    refine hf.obtains_record (by simp) (by simp [valueOf?]; rfl) ?_
    exact .bind (hexprs cond (by simp [exprs])) (.bind (obtains_stmts hf hinner) (.pure _))
  | leave | next => cases hcontent
  | result values =>
    cases hcontent
    exact .bind (obtains_exprs hf hexprs) (.pure _)
  | run e =>
    cases hcontent
    exact .bind (hexprs e (by simp [exprs])) (.pure _)
  | block body =>
    cases hcontent
    exact .bind (obtains_stmts hf hinner) (.pure _)

/-- A statement that the round trip keeps. -/
def IsKept (s : Stmt) : Prop :=
  s.IsRaw ∧ ∀ e ∈ s.exprs, ∀ x ∈ e.subterms, x.IsKept

theorem obtains_decodeWith {s : Stmt} (hs : ∀ s' ∈ s.withInner, s'.IsKept) {fuel : Nat}
    (hfuel : (f s.toDocument).height < fuel) (hreach : fuel ≤ reach) :
    Obtains reach (decodeWith fuel (f s.toDocument)) s := by
  induction fuel generalizing s with
  | zero => cases hfuel
  | succ fuel ih =>
    rcases toDocument_eq s with rfl | rfl | ⟨form, content, heq⟩
    · rw [toDocument, hf.text]
      exact fun _ _ _ _ => rfl
    · rw [toDocument, hf.text]
      exact fun _ _ _ _ => rfl
    · obtain ⟨⟨hraw, hexprs⟩, hinner⟩ := forall_withInner_iff.mp hs
      have hexpr : ∀ e ∈ s.exprs, Obtains reach (Expr.decode (f e.toDocument)) e := fun e he =>
        Expr.obtains_decode hf (hexprs e he)
          ((height_lt_of_expr hf he).trans (hfuel.trans_le hreach))
      have hstmt : ∀ inner ∈ s.inner,
          Obtains reach (decodeWith fuel (f inner.toDocument)) inner := fun inner hmem =>
        ih (hinner inner hmem) ((height_lt_of_inner hf hmem).trans_le (Nat.lt_succ_iff.mp hfuel))
          (Nat.le_of_succ_le hreach)
      rw [heq, hf.choice]
      exact .bind (obtains_variant _) (obtains_decodeForm hf hraw hexpr hstmt heq)

theorem obtains_decode {s : Stmt} (hs : ∀ s' ∈ s.withInner, s'.IsKept)
    (hreach : (f s.toDocument).height < reach) : Obtains reach (decode (f s.toDocument)) s :=
  .bind .reach_eq (obtains_decodeWith hf hs hreach le_rfl)

end Stmt

/-! ## Declarations -/

theorem Visibility.obtains_decode (v : Visibility) :
    Obtains reach (Visibility.decode (f v.toDocument)) v := by
  cases v <;>
  · rw [toDocument, hf.text]
    exact fun _ _ _ _ => rfl

theorem Param.obtains_decode {p : Param} (hp : p.ty.IsWritten) :
    Obtains reach (Param.decode (f p.toDocument)) p := by
  refine hf.obtains_record (by simp) (by simp [valueOf?]; rfl) ?_
  exact .bind (hf.obtains_text p.name) (.bind (obtains_ty hf hp) (.pure _))

theorem obtains_params {params : List Param} (h : ∀ p ∈ params, p.ty.IsWritten) :
    Obtains reach (listOf Param.decode (f (.list (params.map Param.toDocument)))) params :=
  hf.obtains_listOf fun p hp => Param.obtains_decode hf (h p hp)

theorem StructDecl.obtains_decode {decl : StructDecl} (hdecl : decl.IsRaw) :
    Obtains reach (StructDecl.decode (f decl.toDocument)) decl := by
  refine hf.obtains_record (by simp) (by simp [valueOf?]; rfl) ?_
  exact .bind (hf.obtains_text decl.name) (.bind (obtains_params hf hdecl) (.pure _))

theorem obtains_size {size? : Option Nat} (hsize : ∀ n, size? = some n → n < UInt64.size) :
    Obtains reach (orAbsent wordSize ((size?.map sizeDocument).map f)) size? := by
  cases size? with
  | none => exact .pure none
  | some n =>
    have hread : Obtains reach (wordSize (sizeDocument n)) n := by
      refine obtains_value rfl ?_
      simpa [nat?, scalar?, sizeDocument, ofScalar] using hsize n rfl
    rw [Option.map_some, Option.map_some, sizeDocument, hf.int]
    exact obtains_orAbsent rfl rfl hread

/-- A function declaration that the round trip keeps. -/
structure FunctionDecl.IsKept (decl : FunctionDecl) : Prop where
  /-- It is as it was read. -/
  raw : decl.IsRaw
  /-- The round trip keeps the statements of its body. -/
  body : ∀ s ∈ statementsOf decl.body, s.IsKept

theorem FunctionDecl.obtains_decode {decl : FunctionDecl} (hdecl : decl.IsKept)
    (hreach : (f decl.toDocument).height < reach) :
    Obtains reach (FunctionDecl.decode (f decl.toDocument)) decl := by
  have hbody : ∀ s ∈ decl.body, Obtains reach (Stmt.decode (f s.toDocument)) s := by
    intro s hs
    refine Stmt.obtains_decode hf (fun s' hs' => hdecl.body s' (mem_statementsOf hs hs')) ?_
    refine lt_trans ?_ hreach
    exact (Stmt.height_lt_stmts hf hs).trans
      (hf.height_lt_entries "body" decl.entries_nodup (by simp))
  have hreturns : Obtains reach (listOf Ty.decode (f (.list (decl.returns.map Document.ofTy))))
      decl.returns := hf.obtains_listOf fun ty hty => obtains_ty hf (hdecl.raw.returns ty hty)
  refine hf.obtains_record decl.entries_nodup decl.valueOf?_entries ?_
  refine .bind (hf.obtains_text decl.name) (.bind (Visibility.obtains_decode hf decl.visibility) ?_)
  refine .bind (obtains_params hf hdecl.raw.params) (.bind hreturns ?_)
  refine .bind (Stmt.obtains_stmts hf hbody) (.bind (obtains_size hf hdecl.raw.stackSize) ?_)
  exact .bind (obtains_size hf hdecl.raw.tempSize) (.pure _)

/-- A connector declaration that the round trip keeps. -/
structure ConnectorDecl.IsKept (decl : ConnectorDecl) : Prop where
  /-- Its parameters have written types. -/
  params : ∀ p ∈ decl.params, p.ty.IsWritten
  /-- The round trip keeps its actions. -/
  actions : ∀ action ∈ decl.actions, action.IsKept

theorem ConnectorDecl.obtains_decode {decl : ConnectorDecl} (hdecl : decl.IsKept)
    (hreach : (f decl.toDocument).height < reach) :
    Obtains reach (ConnectorDecl.decode (f decl.toDocument)) decl := by
  refine hf.obtains_record (by simp) (by simp [valueOf?]; rfl) ?_
  refine .bind (hf.obtains_text decl.name) (.bind (obtains_params hf hdecl.params) ?_)
  refine .bind (hf.obtains_listOf fun action haction => ?_) (.pure _)
  refine FunctionDecl.obtains_decode hf (hdecl.actions action haction) (lt_trans ?_ hreach)
  exact (hf.height_lt_list (List.mem_map_of_mem haction)).trans
    (hf.height_lt_entries "actions" (by simp) (by simp))

namespace Source

/-- A source that the round trip keeps. -/
structure IsKept (source : Source) : Prop where
  /-- Its struct types are as they were read. -/
  structs : ∀ decl ∈ source.structs, decl.IsRaw
  /-- The round trip keeps its connectors. -/
  connectors : ∀ decl ∈ source.connectors, decl.IsKept
  /-- The round trip keeps its functions. -/
  functions : ∀ decl ∈ source.functions, decl.IsKept

theorem obtains_decode {source : Source} (hsource : source.IsKept)
    (hreach : (f source.toDocument).height < reach) :
    Obtains reach (decode (f source.toDocument)) source := by
  refine hf.obtains_record (by simp) (by simp [valueOf?]; rfl) ?_
  refine .bind (hf.obtains_text source.package) (.bind ?_ (.bind ?_ (.bind ?_ (.pure _))))
  · exact hf.obtains_listOf fun decl hdecl =>
      StructDecl.obtains_decode hf (hsource.structs decl hdecl)
  · refine hf.obtains_listOf fun decl hdecl => ?_
    refine ConnectorDecl.obtains_decode hf (hsource.connectors decl hdecl) (lt_trans ?_ hreach)
    exact (hf.height_lt_list (List.mem_map_of_mem hdecl)).trans
      (hf.height_lt_entries "connectors" (by simp) (by simp))
  · refine hf.obtains_listOf fun decl hdecl => ?_
    refine FunctionDecl.obtains_decode hf (hsource.functions decl hdecl) (lt_trans ?_ hreach)
    exact (hf.height_lt_list (List.mem_map_of_mem hdecl)).trans
      (hf.height_lt_entries "functions" (by simp) (by simp))

theorem ofDocument?_presented {source : Source} (hsource : source.IsKept) :
    ofDocument? (f source.toDocument) = some source := by
  have hread := obtains_decode hf hsource (Nat.lt_succ_self _)
    ⟨#[], 0, none, (0 + 1) * ((f source.toDocument).height + 1)⟩ rfl (by simp) 0
  rw [ofDocument?, decode?, LinkedDocument.decode?]
  exact congrArg (Option.map (·.1)) hread

end Source

end

/-! ## Encoded sources are free-form documents -/

theorem readable_exprs {es : List Expr} (h : ∀ e ∈ es, e.toDocument.Readable) :
    (Document.list (exprsToDocuments es)).Readable := by
  rw [exprsToDocuments_eq]
  exact .list (List.forall_mem_map.mpr h)

theorem readable_named {entries : List (String × Expr)}
    (h : ∀ e ∈ entries.map (·.2), e.toDocument.Readable) :
    (Document.list (namedToDocuments entries)).Readable := by
  rw [namedToDocuments_eq]
  refine .list (List.forall_mem_map.mpr fun entry hentry => .list ?_)
  simpa [readable_ofText] using h entry.2 (List.mem_map_of_mem hentry)

theorem readable_ofTy (ty : Ty) : (Document.ofTy ty).Readable :=
  readable_ofText _

theorem Expr.readable_toDocument {e : Expr} (he : e.AllRaw) : e.toDocument.Readable := by
  obtain ⟨hraw, hallRaw⟩ := forall_subterms_iff.mp he
  have hparts : ∀ part ∈ e.parts, part.toDocument.Readable := fun part hpart =>
    readable_toDocument (hallRaw part hpart)
  cases e with
  | int | float | bool => exact readable_ofChoice (readable_ofScalar _)
  | null => exact readable_ofText _
  | str | xml | var => exact readable_ofChoice (readable_ofText _)
  | json doc => exact readable_ofChoice (readable_ofJson hraw)
  | array elem items =>
    have hitems : (Document.list (exprsToDocuments items)).Readable := readable_exprs hparts
    exact readable_ofChoice (readable_ofEntries (by simp [readable_ofTy, hitems]))
  | map entries => exact readable_ofChoice (readable_named hparts)
  | struct name fields =>
    refine readable_ofChoice (readable_ofEntries ?_)
    simpa [readable_ofText] using readable_named hparts
  | connector name args | call name args _ =>
    have hargs : (Document.list (exprsToDocuments args)).Readable := readable_exprs hparts
    exact readable_ofChoice (readable_ofEntries (by simp [readable_ofText, hargs]))
  | message payload => exact readable_ofChoice (hparts payload (by simp [parts]))
  | index base key =>
    refine readable_ofChoice (readable_ofEntries ?_)
    simpa [parts] using hparts
  | field | unary | binary | cast =>
    refine readable_ofChoice (readable_ofEntries ?_)
    simpa [parts, readable_ofText, readable_ofTy] using hparts
  | action target name args stage =>
    refine readable_ofChoice (readable_ofEntries ?_)
    obtain ⟨htarget, hargs⟩ := List.forall_mem_cons.mp hparts
    simpa [htarget, readable_ofText] using readable_exprs hargs
termination_by sizeOf e
decreasing_by exact Expr.sizeOf_part_lt hpart

theorem Target.readable_toDocument {target : Target}
    (hparts : ∀ e ∈ target.parts, e.toDocument.Readable) : target.toDocument.Readable := by
  cases target with
  | var => exact readable_ofChoice (readable_ofText _)
  | index | field =>
    refine readable_ofChoice (readable_ofEntries ?_)
    simpa [parts, readable_ofText] using hparts

theorem readable_stmts {ss : List Stmt} (h : ∀ s ∈ ss, s.toDocument.Readable) :
    (Document.list (stmtsToDocuments ss)).Readable := by
  rw [stmtsToDocuments_eq]
  exact .list (List.forall_mem_map.mpr h)

theorem Stmt.readable_toDocument {s : Stmt} (hs : s.AllRaw) : s.toDocument.Readable := by
  obtain ⟨⟨-, hallRaw⟩, hinside⟩ := forall_withInner_iff.mp hs
  have hexprs : ∀ e ∈ s.exprs, e.toDocument.Readable := fun e he =>
    Expr.readable_toDocument (hallRaw e he)
  have hinner : ∀ inner ∈ s.inner, inner.toDocument.Readable := fun inner hmem =>
    readable_toDocument (hinside inner hmem)
  cases s with
  | define name ty init? slot? =>
    refine readable_ofChoice (readable_ofEntries ?_)
    cases init? with
    | none => simp [readable_ofText, readable_ofTy]
    | some init => simpa [exprs, readable_ofText, readable_ofTy] using hexprs
  | assign targets value =>
    have htargets : (Document.list (targets.map Target.toDocument)).Readable := by
      refine .list (List.forall_mem_map.mpr fun target htarget => ?_)
      refine Target.readable_toDocument fun e he => hexprs e (List.mem_append_left _ ?_)
      exact List.mem_flatMap.mpr ⟨target, htarget, he⟩
    refine readable_ofChoice (readable_ofEntries ?_)
    simpa [htargets] using hexprs value (by simp [exprs])
  | branch cond yes no =>
    have hyes := readable_stmts fun s hs => hinner s (List.mem_append_left no hs)
    have hno := readable_stmts fun s hs => hinner s (List.mem_append_right yes hs)
    have hcond := hexprs cond (by simp [exprs])
    refine readable_ofChoice (readable_ofEntries ?_)
    split <;> simp [hyes, hno, hcond]
  | loop cond body =>
    have hcond := hexprs cond (by simp [exprs])
    have hbody : (Document.list (stmtsToDocuments body)).Readable := readable_stmts hinner
    exact readable_ofChoice (readable_ofEntries (by simp [hcond, hbody]))
  | leave | next => exact readable_ofText _
  | result values => exact readable_ofChoice (readable_exprs hexprs)
  | run e => exact readable_ofChoice (hexprs e (by simp [exprs]))
  | block body => exact readable_ofChoice (readable_stmts hinner)
termination_by sizeOf s
decreasing_by exact Stmt.sizeOf_inner_lt hmem

theorem readable_params (params : List Param) :
    (Document.list (params.map Param.toDocument)).Readable :=
  .list (List.forall_mem_map.mpr fun _ _ =>
    readable_ofEntries (by simp [readable_ofText, readable_ofTy]))

theorem FunctionDecl.readable_toDocument {decl : FunctionDecl} (hdecl : decl.IsRaw) :
    decl.toDocument.Readable := by
  have hvisibility : decl.visibility.toDocument.Readable := by
    cases decl.visibility <;> exact readable_ofText _
  have hreturns : (Document.list (decl.returns.map Document.ofTy)).Readable :=
    .list (List.forall_mem_map.mpr fun ty _ => readable_ofTy ty)
  have hsize : ∀ key size?, ∀ e ∈ sizeEntry key size?, e.2.Readable := by
    rintro key (_ | size) <;> simp [sizeEntry, readable_ofScalar]
  have hbody := readable_stmts fun s hs => Stmt.readable_toDocument (hdecl.body s hs)
  refine readable_ofEntries fun entry hentry => ?_
  simp only [List.mem_append, List.mem_cons, List.not_mem_nil, or_false] at hentry
  rcases hentry with ((rfl | rfl | rfl | rfl | rfl) | hstack) | htemp
  · exact readable_ofText _
  · exact hvisibility
  · exact readable_params _
  · exact hreturns
  · exact hbody
  · exact hsize _ _ entry hstack
  · exact hsize _ _ entry htemp

namespace Source

theorem readable_toDocument {source : Source} (hsource : source.IsRaw) :
    source.toDocument.Readable := by
  have hstructs : (Document.list (source.structs.map StructDecl.toDocument)).Readable :=
    .list (List.forall_mem_map.mpr fun decl _ =>
      readable_ofEntries (by simp [readable_ofText, readable_params]))
  have hactions : ∀ decl ∈ source.connectors,
      (Document.list (decl.actions.map FunctionDecl.toDocument)).Readable := fun decl hdecl =>
    .list (List.forall_mem_map.mpr fun action haction =>
      FunctionDecl.readable_toDocument ((hsource.connectors decl hdecl).actions action haction))
  have hconnectors : (Document.list (source.connectors.map ConnectorDecl.toDocument)).Readable :=
    .list (List.forall_mem_map.mpr fun decl hdecl =>
      readable_ofEntries (by simp [readable_ofText, readable_params, hactions decl hdecl]))
  have hfunctions : (Document.list (source.functions.map FunctionDecl.toDocument)).Readable :=
    .list (List.forall_mem_map.mpr fun decl hdecl =>
      FunctionDecl.readable_toDocument (hsource.functions decl hdecl))
  exact readable_ofEntries (by simp [readable_ofText, hstructs, hconnectors, hfunctions])

end Source

/-! ## The round trip -/

/-- Whether all doubles in the body of a function declaration are finite. -/
def FunctionDecl.isFinite (decl : FunctionDecl) : Bool :=
  (statementsOf decl.body).all fun s => s.exprs.all fun e => e.subterms.all Expr.isFinite

/-- Whether all doubles in the bodies of a source are finite. -/
def Source.isFinite (source : Source) : Bool :=
  source.functions.all FunctionDecl.isFinite &&
    source.connectors.all fun decl => decl.actions.all FunctionDecl.isFinite

theorem FunctionDecl.IsRaw.isKept {decl : FunctionDecl} (hraw : decl.IsRaw)
    (hfinite : decl.isFinite = true) : decl.IsKept := by
  refine ⟨hraw, fun s' hs' => ?_⟩
  obtain ⟨s, hs, hinside⟩ := exists_of_mem_statementsOf hs'
  obtain ⟨hself, hexprs⟩ := hraw.body s hs s' hinside
  simp only [isFinite, List.all_eq_true] at hfinite
  exact ⟨hself, fun e he x hx => ⟨hexprs e he x hx, hfinite s' hs' e he x hx⟩⟩

theorem Source.IsRaw.isKept {source : Source} (hraw : source.IsRaw)
    (hfinite : source.isFinite = true) : source.IsKept := by
  simp only [isFinite, Bool.and_eq_true, List.all_eq_true] at hfinite
  obtain ⟨hfunctions, hactions⟩ := hfinite
  refine ⟨hraw.structs, fun decl hdecl => ?_, fun decl hdecl => ?_⟩
  · have hdeclRaw := hraw.connectors decl hdecl
    exact ⟨hdeclRaw.params, fun action haction =>
      (hdeclRaw.actions action haction).isKept (hactions decl hdecl action haction)⟩
  · exact (hraw.functions decl hdecl).isKept (hfunctions decl hdecl)

namespace Source

/-- A source that was read from some document, and whose doubles are finite, is read back from the
document that encodes it, and from the free-form document that is. -/
theorem decoding_inverts_encoding {d : LinkedDocument} {source : Source}
    (hread : d.decode? decode = some source) (hfinite : source.isFinite = true) :
    ofDocument? source.toDocument = some source ∧
      ∃ doc, source.toDocument.toJson? = some doc ∧
        ofDocument? (.ofJson doc) = some source := by
  have hraw := isRaw_of_decode? hread
  have hkept := hraw.isKept hfinite
  exact ⟨ofDocument?_presented .id hkept, source.toDocument.written,
    (readable_toDocument hraw).toJson?_eq, ofDocument?_presented .written hkept⟩

/-- A document with a null as a start value, a choice without a second block and a free-form null.
It has spaces in types, records without their keys, and an integer where a double is read. -/
def shorthand : Document :=
  .ofEntries [("functions", .list [.ofEntries [
    ("returns", .list [.ofText " float [] "]),
    ("name", .ofText "main"),
    ("body", .list [
      .ofChoice "var" (.list [.ofText "x", .ofText "json", .ofText "null"]),
      .ofChoice "var" (.list [.ofText "y", .ofText "float",
        .ofChoice "float" (.ofScalar (.int 3))]),
      .ofChoice "if" (.list [.ofChoice "bool" (.ofScalar (.bool true)),
        .list [.ofChoice "expr" (.ofChoice "json" (.ofScalar .null))]]),
      .ofChoice "return" (.list [.ofChoice "array" (.ofEntries [
        ("items", .list [.ofChoice "var" (.ofText "y")]), ("elem", .ofText "float")])])])]])]

theorem decoding_inverts_encoding_shorthand : ∃ source : Source,
    LinkedDocument.decode? decode { root := shorthand } = some source ∧ source.functions ≠ [] ∧
      ofDocument? source.toDocument = some source ∧
      ∃ doc, source.toDocument.toJson? = some doc ∧ ofDocument? (.ofJson doc) = some source := by
  have hshort : (LinkedDocument.decode? decode { root := shorthand }).any
      (fun source => !source.functions.isEmpty && source.isFinite) = true := by decide +kernel
  obtain ⟨source, hread, htest⟩ := (Option.any_eq_true _ _).mp hshort
  rw [Bool.and_eq_true] at htest
  exact ⟨source, hread, by simpa using htest.1, decoding_inverts_encoding hread htest.2⟩

end Source

end FrameScript
