import FailureOrchestrator.Fingerprint
import FailureOrchestrator.Integrity
import FailureOrchestrator.Remediation

namespace FailureOrchestrator

open Regex

namespace DiffRisk

def levelOrder (level : Str) : Option Nat :=
  if level = riskLow then some 0 else if level = riskMedium then some 1 else if level = riskHigh then some 2 else none

def mediumThreshold : Nat := 20

def highThreshold : Nat := 50

def authn : List String :=
  ["auth", "authn", "authentication", "authenticate", "login", "logout", "session", "sessions",
    "oauth", "oauth2", "jwt", "password", "passwords", "credential", "sso", "saml", "oidc"]

def authz : List String :=
  ["authz", "authorization", "authorize", "permission", "permissions", "rbac", "acl", "acls",
    "role", "roles", "privilege", "privileges"]

def paymentWords : List String :=
  ["payment", "payments", "billing", "invoice", "invoices", "charge", "charges", "refund",
    "refunds", "ledger", "checkout", "stripe", "paypal", "wallet"]

def migrationWords : List String := ["migration", "migrations", "alembic", "migrate", "flyway", "liquibase"]

def secretWords : List String := ["secret", "secrets", "credentials", "vault", "keystore"]

def infraDirs : List String :=
  ["terraform", "k8s", "kubernetes", "helm", "infra", "infrastructure", "deploy", "deployment",
    "ansible", "pulumi", "cloudformation"]

def dependencyFiles : List String :=
  ["requirements.txt", "pyproject.toml", "setup.py", "setup.cfg", "pipfile", "pipfile.lock",
    "poetry.lock", "uv.lock", "package.json", "package-lock.json", "yarn.lock", "pnpm-lock.yaml",
    "go.mod", "go.sum", "cargo.toml", "cargo.lock", "gemfile", "gemfile.lock", "pom.xml",
    "build.gradle", "build.gradle.kts"]

def tokenSplit : Regex := some1 (.cls fun c => isSpace c || "/_.-".toList.contains c)

/-- `max_level`; `HIGH` when no level is known. -/
def maxLevel (levels : List Str) : Str :=
  (levels.filter fun level => (levelOrder level).isSome).foldl
    (fun best level => match best with
      | none => some level
      | some b => if (levelOrder b).getD 0 < (levelOrder level).getD 0 then some level else some b) none
  |>.getD riskHigh

/-- A reason for risk with its points, when it applies; `forced` reasons make the risk high. -/
structure Factor where
  points : Nat
  reason : Str
  forced : Bool := false

variable [UnicodeData]

def authCodeMarkers : Regex :=
  cat [.wordB, anyOf [lit "login_required", lit "is_authenticated",
    cat [lit "has_perm", opt (lit "ission"), opt (chr 's')], lit "is_admin", lit "is_superuser", lit "check_password",
    lit "verify_token", lit "verify_password", lit "require_role", lit "permission_classes", lit "authorize",
    lit "jwt.decode"], .wordB]

def lowered (path : Str) : Str := UnicodeData.lower (replaceChar '\\' '/' path)

def fileName (path : Str) : Str := UnicodeData.lower (afterLast '/' (replaceChar '\\' '/' path))

/-- Whether a word of the path is in the set. -/
def hasToken (path : Str) (set : List String) : Bool :=
  (split tokenSplit (UnicodeData.lower path)).any fun token => !token.isEmpty && inSet token set

def isProse (path : Str) : Bool :=
  endsWithAny (lowered path) [".md", ".rst", ".txt", ".adoc"] || startsWith (lowered path) "docs/".toList

def isDependency (path : Str) : Bool :=
  inSet (fileName path) dependencyFiles ||
    (startsWith (fileName path) "requirements".toList && endsWithAny (fileName path) [".txt", ".in"])

def isSecretConfig (path : Str) : Bool :=
  startsWith (fileName path) ".env".toList || hasToken path secretWords || endsWithAny (fileName path) [".pem", ".key"]

def isInfra (path : Str) : Bool :=
  let segments := splitChar '/' (lowered path)
  let name := segments.getLastD []
  endsWithAny name [".tf", ".tfvars"] || name = "dockerfile".toList ||
    startsWithAny name ["docker-compose", "compose."] || segments.dropLast.any fun s => inSet s infraDirs

/-- `sorted({f.path for f in files if pred(f)})`. -/
def matching (files : List FileDiff) (pred : FileDiff → Bool) : List Str :=
  sortStrs (fromKeys ((files.filter pred).map (·.path)))

/-- The checks of files: points, predicate, reason, and whether the reason forces a high risk. -/
def checks : List (Nat × (FileDiff → Bool) × String × Bool) :=
  [(10, fun f => isTestPath f.path && !f.removed.isEmpty, "existing tests modified", false),
    (25, fun f => isCiPath f.path, "CI configuration changed", false),
    (20, fun f => isDependency f.path, "dependencies changed", false),
    (40, fun f => !isTestPath f.path && hasToken f.path authn, "authentication code changed", true),
    (40, fun f => !isTestPath f.path && (hasToken f.path authz || (f.added ++ f.removed).any (found authCodeMarkers)),
      "authorization code changed", true),
    (30, fun f => !isTestPath f.path && hasToken f.path paymentWords, "payment code changed", true),
    (30, fun f => hasToken f.path migrationWords || endsWith (UnicodeData.lower f.path) ".sql".toList,
      "database migration changed", true),
    (30, fun f => isSecretConfig f.path, "secrets or credential configuration changed", true),
    (25, fun f => isInfra f.path, "infrastructure changed", false)]

/-- A count over one of two bounds. -/
def sizeFactor (n many few : Nat) (what : String) : List Factor :=
  if many < n then [⟨20, natStr n ++ what.toList, false⟩]
  else if few < n then [⟨10, natStr n ++ what.toList, false⟩]
  else []

def factors (files : List FileDiff) : List Factor :=
  let linesChanged := (files.map fun f => f.added.length + f.removed.length).sum
  sizeFactor files.length 10 3 " files changed" ++
  sizeFactor linesChanged 200 50 " lines changed" ++
  (checks.filterMap fun (points, pred, reason, forced) =>
    match matching files pred with
    | [] => none
    | hits => some ⟨points, reason.toList ++ ": ".toList ++ joinWith ", ".toList (hits.take 3), forced⟩) ++
  (if (matching files fun f => !isTestPath f.path && !isProse f.path).isEmpty then []
    else [⟨5, "production code changed".toList, false⟩])

def level (fs : List Factor) : Str :=
  let score := (fs.map (·.points)).sum
  if fs.any (·.forced) || highThreshold ≤ score then riskHigh
  else if mediumThreshold ≤ score then riskMedium
  else riskLow

end DiffRisk

/-- `score_diff_risk`: the risk level with its reasons. -/
def scoreDiffRisk [UnicodeData] (patch : Str) : Except PyError (Str × List Str) := do
  let diffs ← parseUnifiedDiff patch
  let factors := DiffRisk.factors (diffs.filter fun f => !f.path.isEmpty)
  return (DiffRisk.level factors, factors.map (·.reason))

end FailureOrchestrator
