import FailureOrchestrator.Regex

namespace FailureOrchestrator

open Regex

/-! The compiled patterns of the patch analysis, one definition each. A group is captured
only where the program reads it. -/

variable [UnicodeData]

def hunkRe : Regex :=
  cat [.bos, lit "@@ -", some1 digit, opt (cat [chr ',', .grp 1 (some1 digit)]), lit " +",
    some1 digit, opt (cat [chr ',', .grp 2 (some1 digit)]), lit " @@"]

def testBasenameRe : Regex :=
  cat [.bos, anyOf [cat [lit "test_", many dot, lit ".py"], cat [many dot, lit "_test.", lits ["py",
    "go"]], lit "conftest.py", cat [many dot, chr '.', lits ["test", "spec"], chr '.',
    opt (oneOf "cm"), oneOf "jt", chr 's', opt (chr 'x')], cat [many dot, lit "test", opt (chr 's'),
    chr '.', lits ["java", "kt", "cs"]], cat [many dot, lit "_spec.rb"]], .eos]

def qualityConfigRe : Regex :=
  cat [.bos, anyOf [lit "pyproject.toml", lit "setup.cfg", lit "tox.ini", lit ".flake8",
    cat [opt (chr '.'), lit "ruff.toml"], cat [opt (chr '.'), lit "mypy.ini"], lit "pytest.ini",
    lit ".coveragerc", cat [lit ".pre-commit-config.y", opt (chr 'a'), lit "ml"],
    cat [lit "tsconfig", many dot, lit ".json"], cat [lit ".eslintrc", many dot],
    cat [lit "eslint.config.", many dot], cat [lits ["jest", "vitest"], lit ".config.", many dot],
    lit "package.json", cat [lit "codecov.y", opt (chr 'a'), lit "ml"], cat [lit ".golangci.y",
    opt (chr 'a'), lit "ml"], lit ".bandit"], .eos]

def reviewControlRe : Regex :=
  cat [anyOf [.bos, chr '/'], anyOf [lit "codeowners", cat [lit ".github/settings.y", opt (chr 'a'),
    lit "ml"], cat [lit ".github/rulesets/", many dot]], .eos]

def testDefRe : Regex :=
  anyOf [
    cat [.bos, spaces, opt (cat [lit "async", spaces1]), lit "def", spaces1, lit "test", many word,
      spaces, chr '('],
    cat [.bos, spaces, lit "func", spaces1, lit "Test", many word, spaces, chr '('],
    cat [.bos, spaces, lits ["it", "test"], spaces, chr '(', spaces, oneOf "'\"`"],
    cat [lit "@Test", .wordB]]

def skipRe : Regex :=
  anyOf [
    cat [lit "pytest.mark.", lits ["skip", "skipif", "xfail"], .wordB],
    cat [.wordB, lit "pytest.", lits ["skip", "xfail", "importorskip"], spaces, chr '('],
    cat [.wordB, lit "unittest.", lits ["skip", "skipIf", "skipUnless", "expectedFailure"], .wordB],
    cat [.bos, spaces, chr '@', lits ["skip", "skipIf", "skipUnless", "expectedFailure"], .wordB],
    cat [lit ".skipTest", spaces, chr '('],
    cat [.wordB, lits ["it", "describe", "test", "context"], chr '.', lits ["skip", "todo"], spaces,
      chr '('],
    cat [.bos, spaces, chr 'x', lits ["it", "describe", "test"], spaces, chr '('],
    cat [chr '@', lits ["Disabled", "Ignore"], .wordB],
    cat [.wordB, lit "t.Skip", opt (lits ["f", "Now"]), spaces, chr '(']]

def focusRe : Regex :=
  anyOf [
    cat [.wordB, lits ["it", "describe", "test", "context"], lit ".only", spaces, chr '('],
    cat [.bos, spaces, chr 'f', lits ["it", "describe"], spaces, chr '(']]

def deselectRe : Regex :=
  anyOf [
    cat [lit "--ignore", opt (lit "-glob"), oneOf "= "],
    cat [lit "--deselect", .wordB],
    cat [space, lit "-k", spaces1, opt (oneOf "'\""), lit "not", .wordB],
    cat [.wordB, lit "collect_ignore", opt (lit "_glob"), .wordB],
    cat [.wordB, lit "testPathIgnorePatterns", .wordB]]

def assertionRe : Regex :=
  anyOf [
    cat [.bos, spaces, lit "assert", .wordB],
    cat [.wordB, lit "self.assert", many word, spaces, chr '('],
    cat [.wordB, lit "expect", spaces, chr '('],
    cat [.wordB, lits ["assert", "require"], chr '.', some1 word, spaces, chr '('],
    cat [.wordB, lit "assert", lits ["That", "Equals", "True", "False", "NotNull", "Null",
      "Throws"], spaces, chr '('],
    cat [.wordB, lit "pytest.raises", .wordB],
    cat [.wordB, lit "t.", lits ["Error", "Fatal"], opt (chr 'f'), spaces, chr '(']]

def strongRe : Regex :=
  anyOf [
    cat [noneOf "=!<>", lit "==", noneOf "="],
    lit "!=",
    cat [.wordB, lit "assert", many word, lit "Equal", many word, spaces, chr '('],
    cat [.wordB, lit "assert", anyOf [lit "Equals", lit "Throws", cat [lit "Raises", many word],
      lit "In", lit "Is", lit "IsInstance"], spaces, chr '('],
    cat [chr '.', anyOf [lit "toEqual", lit "toBe", lit "toStrictEqual", cat [lit "toMatch",
      many word], cat [lit "toThrow", many word], lit "toHaveBeenCalledWith", lit "toContain"],
      spaces, chr '('],
    cat [.wordB, lit "assert.", anyOf [cat [lit "Equal", many word], lit "Exactly", lit "ErrorIs",
      lit "EqualError", lit "Contains"], spaces, chr '('],
    cat [.wordB, lit "pytest.raises", .wordB]]

def tautologyRe : Regex :=
  cat [.bos, spaces, lit "assert", spaces1, .grp 1 (some1 (.cls fun c => isWord c || c == '.')),
    spaces, lit "==", spaces, .ref 1, spaces, opt (cat [chr '#', many dot]), .eos]

def weakRe : Regex :=
  anyOf [
    cat [.wordB, lit "is", spaces1, lit "not", spaces1, lit "None", .wordB],
    cat [.bos, spaces, lit "assert", spaces1, anyOf [lit "True", chr '1', cat [lit "not", spaces1,
      lit "None"]], spaces, opt (cat [chr '#', many dot]), .eos],
    cat [.bos, spaces, lit "assert", spaces1, some1 (.cls fun c => isWord c || c == '.'), spaces,
      opt (cat [chr '#', many dot]), .eos],
    tautologyRe,
    cat [.wordB, lit "assert", lits ["IsNotNone", "NotNull"], spaces, chr '('],
    cat [.wordB, lit "assertTrue", spaces, chr '(', spaces, lits ["True", "1"], spaces, chr ')'],
    cat [chr '.', lits ["toBeDefined", "toBeTruthy"], spaces, chr '('],
    cat [lit ".not.", lits ["toBeNull", "toBeUndefined"], spaces, chr '('],
    cat [.wordB, lit "assert.", lits ["NotNil", "NotEmpty"], spaces, chr '(']]

def exitOverrideRe : Regex :=
  anyOf [
    cat [.wordB, lit "exitstatus", spaces, chr '=', spaces, chr '0', .wordB],
    cat [.wordB, lit "os._exit", spaces, chr '('],
    cat [.wordB, lit "sys.exit", spaces, chr '(', spaces, opt (chr '0'), spaces, chr ')']]

def ciIgnoreRe : Regex :=
  anyOf [
    cat [.wordB, lit "continue-on-error:", spaces, lit "true", .wordB],
    cat [.wordB, lit "allow_failure:", spaces, lit "true", .wordB],
    cat [lit "||", spaces, anyOf [lit "true", chr ':', cat [lit "exit", spaces1, chr '0']], .wordB],
    cat [.wordB, lit "set", spaces1, lit "+e", .wordB],
    cat [lit "--exit-zero", .wordB],
    cat [.bos, spaces, lit "if:", spaces, anyOf [lit "false", cat [lit "$\x7b\x7b", spaces,
      lit "false", spaces, lit "\x7d\x7d"]], spaces, .eos],
    cat [.bos, spaces, lit "when:", spaces, lits ["never", "manual"], spaces, .eos]]

def checkToolRe : Regex :=
  cat [.wordB, .grp 1 (anyOf [lit "pytest", lit "tox", lit "nox", lit "unittest", lit "jest",
    lit "vitest", lit "mocha", lit "go test", lit "go vet", lit "cargo test", lit "cargo clippy",
    cat [lit "npm ", opt (lit "run "), lit "test"], lit "yarn test", lit "pnpm test",
    cat [lit "mvn", .wordB, many (noneOf "\n"), .wordB, lits ["test", "verify"]], cat [lit "gradle",
    opt (chr 'w'), chr ' ', many (noneOf "\n"), .wordB, lits ["test", "check"]], lit "ruff",
    lit "flake8", lit "pylint", lit "mypy", lit "pyright", lit "eslint", lit "tsc",
    lit "golangci-lint", lit "bandit", lit "semgrep", lit "codeql", lit "trivy", lit "gitleaks",
    lit "pip-audit", lit "safety", lit "npm audit", lit "snyk", lit "coverage"]), .wordB]

def gateDisabledRe : Regex :=
  anyOf [cat [.bos, spaces, ilit "ignore_errors", spaces, ichr '=', spaces, ilit "true", .wordB],
    cat [.bos, spaces, ilit "strict", spaces, ichr '=', spaces, ilit "false", .wordB], cat [chr '"',
    lits ["strict", "noImplicitAny", "strictNullChecks"], chr '"', spaces, chr ':', spaces,
    lit "false"], cat [anyOf [.bos, space], lit "-p", spaces1, lit "no:"]]

def precommitHookRe : Regex :=
  cat [.bos, spaces, chr '-', spaces, lit "id:", spaces,
    .grp 1 (some1 (.cls fun c => isWord c || c == '.' || c == '-'))]

/-- The coverage thresholds by the key that names them. -/
def thresholdRes : List (String × Regex) := [
    ("fail_under", cat [lit "fail", oneOf "_-", lit "under", spaces, oneOf "=:", spaces,
      .grp 1 (cat [some1 digit, opt (cat [chr '.', some1 digit])])]),
    ("cov-fail-under", cat [lit "--cov-fail-under", oneOf "= ", .grp 1 (cat [some1 digit,
      opt (cat [chr '.', some1 digit])])]),
    ("minimum_coverage", cat [lit "min", opt (lit "imum"), oneOf "_-", lit "coverage", spaces,
      oneOf "=:", spaces, .grp 1 (cat [some1 digit, opt (cat [chr '.', some1 digit])])])]

def jestThresholdRe : Regex :=
  cat [opt (oneOf "\"'"), .grp 1 (lits ["branches", "functions", "lines", "statements"]),
    opt (oneOf "\"'"), spaces, chr ':', spaces, .grp 2 (cat [some1 digit, opt (cat [chr '.',
    some1 digit])])]

def inlineSuppressionRe : Regex :=
  anyOf [
    cat [chr '#', spaces, lit "noqa", .wordB],
    cat [chr '#', spaces, lit "type:", spaces, lit "ignore", .wordB],
    cat [chr '#', spaces, lit "pyright:", spaces, lit "ignore", .wordB],
    cat [chr '#', spaces, lit "pylint:", spaces, lit "disable", .wordB],
    cat [chr '#', spaces, lit "nosec", .wordB],
    cat [chr '#', spaces, lit "nosemgrep", .wordB],
    cat [chr '#', spaces, lit "pragma:", spaces, lit "no", spaces, lit "cover", .wordB],
    lit "eslint-disable",
    cat [lit "@ts-", lits ["ignore", "nocheck", "expect-error"], .wordB],
    cat [lit "//", spaces, lit "nolint", .wordB],
    cat [lit "@SuppressWarnings", .wordB],
    cat [.wordB, lit "NOSONAR", .wordB]]

def pyBroadExceptRe : Regex :=
  cat [.bos, spaces, lit "except", spaces, opt (cat [opt (chr '('), spaces, lits ["Exception",
    "BaseException"], .wordB, many (noneOf ":")]), chr ':', spaces, .grp 1 (manyLazy (noneOf "#")),
    spaces, opt (cat [chr '#', many dot]), .eos]

def swallowBodyRe : Regex :=
  cat [.bos, anyOf [lit "pass", lit "...", lit "continue", lit "return", cat [lit "return", spaces1,
    lit "None"]], .eos]

def swallowInlineRe : Regex :=
  anyOf [
    cat [.wordB, lit "catch", spaces, opt (cat [chr '(', spaces, many word, spaces,
      opt (cat [chr ':', spaces, some1 word]), spaces, chr ')']), spaces, chr '\x7b', spaces,
      chr '\x7d'],
    cat [.wordB, lit "catch", spaces, chr '(', spaces, lits ["Exception", "Throwable",
      "RuntimeException"], spaces1, some1 word, spaces, chr ')', spaces, chr '\x7b', spaces,
      chr '\x7d'],
    cat [.wordB, lit "suppress", spaces, chr '(', spaces, lits ["Exception", "BaseException"],
      spaces, chr ')']]

def testRunnerSniffRe : Regex :=
  anyOf [
    lit "PYTEST_CURRENT_TEST",
    cat [oneOf "'\"", lit "pytest", oneOf "'\"", spaces1, lit "in", spaces1, lit "sys.modules"],
    cat [lit "sys.modules.get(", spaces, oneOf "'\"", lit "pytest"],
    cat [lit "process.env.", lits ["JEST_WORKER_ID", "VITEST"], .wordB],
    cat [lit "process.env.NODE_ENV", spaces, oneOf "!=", chr '=', opt (chr '='), spaces,
      oneOf "'\"", lit "test", oneOf "'\""],
    cat [.wordB, lit "testing.Testing()"]]

def ciSniffRe : Regex :=
  anyOf [
    cat [.wordB, lit "os.", lits ["environ.get", "getenv"], chr '(', spaces, oneOf "'\"",
      lits ["CI", "GITHUB_ACTIONS", "GITLAB_CI", "CIRCLECI"], oneOf "'\""],
    cat [.wordB, lit "os.environ[", spaces, oneOf "'\"", lits ["CI", "GITHUB_ACTIONS", "GITLAB_CI",
      "CIRCLECI"], oneOf "'\""],
    cat [oneOf "'\"", lits ["CI", "GITHUB_ACTIONS", "GITLAB_CI", "CIRCLECI"], oneOf "'\"", spaces1,
      lit "in", spaces1, lit "os.environ"],
    cat [lit "process.env.", lits ["CI", "GITHUB_ACTIONS", "GITLAB_CI", "CIRCLECI"], .wordB]]

end FailureOrchestrator
