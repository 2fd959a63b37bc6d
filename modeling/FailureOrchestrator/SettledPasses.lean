import FailureOrchestrator.KeptTokens

namespace FailureOrchestrator

open Regex

/-! What a pass leaves is free of its own secrets and stays free of those that earlier passes removed. -/

/-- The kept and removed parts of a pass. -/
def SecretKind.Piece [UnicodeData] : SecretKind → Str → Str → Str → Str → Prop
  | .assignment => KeepsName
  | kind => WholePiece kind

section

variable [UnicodeData] {kind : SecretKind} {before seg gone v out text : Str}

theorem redact_pieces (hkind : kind ≠ .bearer) (text : Str) :
    Pieces kind.Piece (LastPiece kind) [] text (kind.redact text) := by
  have hsub := kind.redact_substitutes text
  cases kind with
  | bearer => exact absurd rfl hkind
  | assignment => exact assignment_pieces hsub (opens_nil text)
  | githubToken | awsKey | connection | privateKey => exact whole_pieces rfl hsub (opens_nil text)

theorem WholePiece.replaced (h : WholePiece kind before seg gone v) : Replaced (gone ++ v) (redacted ++ out) := by
  obtain ⟨g, hg⟩ := h.takes
  obtain ⟨t, z, hx, ht⟩ := SecretKind.lead_of_mem (List.mem_of_head? hg)
  refine .inr ⟨?_, out, rfl⟩
  rw [hx]
  exact ht.head

theorem AssignmentPiece.replaced {u name sign value : Str} (h : AssignmentPiece before u name sign value v) :
    Replaced (value ++ v) (redacted ++ out) := .inr ⟨RunOf.head h.value_text.2 h.value_text.1, out, rfl⟩

theorem SecretKind.Piece.opens (h : kind.Piece before seg gone v) : Opens before (seg ++ (gone ++ v)) := by
  cases kind with
  | bearer | githubToken | awsKey | connection | privateKey => exact WholePiece.opens h
  | assignment =>
    obtain ⟨u, name, sign, rfl, hpiece⟩ := h
    have hopens := hpiece.opens
    simpa only [List.append_assoc] using hopens

theorem SecretKind.Piece.replaced (h : kind.Piece before seg gone v) : Replaced (gone ++ v) (redacted ++ out) := by
  cases kind with
  | bearer | githubToken | awsKey | connection | privateKey => exact WholePiece.replaced h
  | assignment =>
    obtain ⟨u, name, sign, rfl, hpiece⟩ := h
    exact hpiece.replaced

theorem WholePiece.free' (h : WholePiece kind before seg gone v) : Nowhere kind.pattern.Begins before seg (gone ++ v) :=
  freeIn_iff_nowhere.mp h.free

theorem WholePiece.boundary (hkind : kind.isToken = true) (h : WholePiece kind before seg gone v) :
    atWordBoundary ⟨seg.reverse ++ before, gone ++ v, []⟩ = true := by
  obtain ⟨g, hg⟩ := h.takes
  exact ((begins_token_iff hkind).mp ⟨_, List.mem_of_head? hg⟩).1

theorem WholePiece.connection (h : WholePiece .connection before seg gone v) : ConnectionText gone := by
  obtain ⟨g, hg⟩ := h.takes
  obtain ⟨t, v', heq, ht, hcursor⟩ := mem_connection_iff.mp (List.mem_of_head? hg)
  obtain ⟨-, rfl, -⟩ := Cursor.mk.inj hcursor
  rwa [List.append_cancel_right heq]

theorem WholePiece.privateKey (h : WholePiece .privateKey before seg gone v) : PrivateKeyText gone := by
  obtain ⟨g, hg⟩ := h.takes
  obtain ⟨t, v', heq, ht, hcursor⟩ := mem_privateKey_iff.mp (List.mem_of_head? hg)
  obtain ⟨-, rfl, -⟩ := Cursor.mk.inj hcursor
  rwa [List.append_cancel_right heq]

/-! ## Tokens -/

/-- Only a connection string lets a token end where the pass cuts. -/
theorem SecretKind.Piece.tokenEnds {token : SecretKind} (htoken : token.isToken = true) (hbearer : kind ≠ .bearer)
    (hconnection : kind ≠ .connection) (h : kind.Piece before seg gone v) : TokenEnds token before seg (gone ++ v) := by
  cases kind with
  | bearer => exact absurd rfl hbearer
  | connection => exact absurd rfl hconnection
  | githubToken | awsKey => exact tokenEnds_of_boundary htoken (WholePiece.boundary rfl h)
  | assignment =>
    obtain ⟨u, name, sign, rfl, hpiece⟩ := h
    rw [← List.append_assoc]
    exact tokenEnds_sign htoken hpiece.sign_text
  | privateKey =>
    obtain ⟨t, rfl⟩ := (WholePiece.privateKey h).dash
    exact tokenEnds_dash htoken

variable (kind) in
/-- A pass leaves a text free of tokens when its kept parts are and a token ends at every cut. -/
theorem tokens_settled {token : SecretKind} (htoken : token.isToken = true) {rest : Str}
    (h : Pieces (fun b s g v => kind.Piece b s g v ∧ Nowhere token.pattern.Begins b s (g ++ v) ∧ TokenEnds token b s (g ++ v))
      (fun b x => LastPiece kind b x ∧ Nowhere token.pattern.Begins b x []) [] rest out) :
    Nowhere token.pattern.Begins [] out [] := by
  refine h.nowhere token.nowhere_redacted ?_ ?_ []
  · rintro b before seg gone v out ⟨hpiece, hno, hends⟩
    exact token_kept htoken hno hpiece.opens hpiece.replaced hends
  · rintro b before rest ⟨hlast, hno⟩
    refine token_kept htoken hno ?_ replaced_nil (tokenEnds_nil htoken)
    rw [List.append_nil]
    exact hlast.opens

theorem SecretKind.Piece.free_token (hkind : kind.isToken = true) (h : kind.Piece before seg gone v) :
    Nowhere kind.pattern.Begins before seg (gone ++ v) := by
  cases kind with
  | bearer | assignment | connection | privateKey => cases hkind
  | githubToken | awsKey => exact WholePiece.free' h

theorem token_own {token : SecretKind} (htoken : token.isToken = true) (text : Str) :
    Nowhere token.pattern.Begins [] (token.redact text) [] := by
  have hbearer : token ≠ .bearer := by
    rintro rfl
    cases htoken
  have hconnection : token ≠ .connection := by
    rintro rfl
    cases htoken
  have hpieces := redact_pieces hbearer text
  refine tokens_settled token htoken (hpieces.mono (fun b s g v hpiece => ?_) fun b x hlast => ?_)
  · exact ⟨hpiece, hpiece.free_token htoken, hpiece.tokenEnds htoken hbearer hconnection⟩
  · exact ⟨hlast, freeIn_iff_nowhere.mp hlast.free⟩

theorem token_later {token : SecretKind} (htoken : token.isToken = true) (hbearer : kind ≠ .bearer)
    (hconnection : kind ≠ .connection) (hno : Nowhere token.pattern.Begins [] text []) :
    Nowhere token.pattern.Begins [] (kind.redact text) [] := by
  refine tokens_settled kind htoken (((redact_pieces hbearer text).within hno).mono (fun b s g v hpiece => ?_) fun _ _ h => h)
  exact ⟨hpiece.1, hpiece.2, hpiece.1.tokenEnds htoken hbearer hconnection⟩

theorem github_connection (hno : Nowhere SecretKind.githubToken.pattern.Begins [] text []) :
    Nowhere SecretKind.githubToken.pattern.Begins [] (SecretKind.connection.redact text) [] := by
  have hpieces := (redact_pieces (by decide : SecretKind.connection ≠ .bearer) text).within hno
  refine tokens_settled .connection rfl (hpieces.mono (fun b s g v hpiece => ?_) fun _ _ h => h)
  exact ⟨hpiece.1, hpiece.2, github_tokenEnds (WholePiece.connection hpiece.1)⟩

/-! ## Bearer tokens, connection strings and private keys -/

theorem bearer_later (hkind : kind ≠ .bearer) (hno : Nowhere SecretKind.bearer.pattern.Begins [] text []) :
    Nowhere SecretKind.bearer.pattern.Begins [] (kind.redact text) [] := by
  refine ((redact_pieces hkind text).within hno).nowhere SecretKind.bearer.nowhere_redacted ?_ ?_ []
  · rintro b before seg gone v out ⟨hpiece, hno⟩
    exact bearer_kept hno hpiece.replaced
  · rintro b before rest ⟨-, hno⟩
    exact bearer_kept hno replaced_nil

theorem connection_own (text : Str) :
    Nowhere SecretKind.connection.pattern.Begins [] (SecretKind.connection.redact text) [] := by
  refine (redact_pieces (by decide : SecretKind.connection ≠ .bearer) text).nowhere SecretKind.connection.nowhere_redacted ?_ ?_ []
  · intro b before seg gone v out hpiece
    exact connection_kept (WholePiece.free' hpiece) hpiece.replaced
  · intro b before rest hlast
    exact connection_kept (freeIn_iff_nowhere.mp hlast.free) replaced_nil

theorem connection_later (hkind : kind ≠ .bearer) (hno : Nowhere SecretKind.connection.pattern.Begins [] text []) :
    Nowhere SecretKind.connection.pattern.Begins [] (kind.redact text) [] := by
  refine ((redact_pieces hkind text).within hno).nowhere SecretKind.connection.nowhere_redacted ?_ ?_ []
  · rintro b before seg gone v out ⟨hpiece, hno⟩
    exact connection_kept hno hpiece.replaced
  · rintro b before rest ⟨-, hno⟩
    exact connection_kept hno replaced_nil

/-- In front of a private key that is removed no key line begins another. -/
theorem privateKey_own (text : Str) :
    Nowhere SecretKind.privateKey.pattern.Begins [] (SecretKind.privateKey.redact text) [] := by
  refine (redact_pieces (by decide : SecretKind.privateKey ≠ .bearer) text).nowhere SecretKind.privateKey.nowhere_redacted ?_ ?_ []
  · rintro b before seg gone v out hpiece u w heq hw ⟨m', hm⟩
    obtain ⟨first, body, last, hgone, -, hlast⟩ := WholePiece.privateKey hpiece
    obtain ⟨t, z, hx, ht⟩ := SecretKind.lead_of_mem hm
    have hreplaced : Replaced (gone ++ v) (redacted ++ out) := hpiece.replaced
    obtain ⟨z', rfl, rfl⟩ := hreplaced.split ht.unbracketed hx
    refine WholePiece.free' hpiece u _ heq hw ⟨_, mem_privateKey_iff.mpr ⟨t ++ ((z' ++ (first ++ body)) ++ last), v, ?_,
      ⟨t, z' ++ (first ++ body), last, rfl, ht, hlast⟩, rfl⟩⟩
    rw [hgone]
    simp
  · rintro b before rest hlast u w heq hw ⟨m', hm⟩
    obtain ⟨t, z, hx, ht, -⟩ := mem_privateKey_iff.mp hm
    exact freeIn_iff_nowhere.mp hlast.free u w heq hw ⟨_, mem_privateKey_iff.mpr ⟨t, z, hx, ht, rfl⟩⟩

end

end FailureOrchestrator
