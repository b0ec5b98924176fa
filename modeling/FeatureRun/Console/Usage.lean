/-!
# What the program says about itself

The overview of the commands, and the settings file that a new workspace gets.
-/
set_option autoImplicit false

namespace FeatureRun.Console

/-- Lines, each with a line feed behind it. -/
def asLines (ls : List String) : String := String.join (ls.map fun l => l ++ "\n")

def usage : String := asLines
  ["cuke-runner: discover Gherkin features, run Cucumber, map results onto scenarios",
    "",
    "Usage:",
    "  cuke init                        Create .cuke/config.yaml with the default settings",
    "  cuke discover                    Find .feature files and print the test tree",
    "  cuke run [path[:line] ...]       Run features, rules, scenarios or example rows",
    "  cuke results <report> [target]   Map an existing Cucumber JSON report onto the tree",
    "  cuke status                      Show the last known results and recent runs",
    "  cuke watch                       Re-parse feature files as they change",
    "  cuke reset [path]                Forget stored results (all, or one feature file)",
    "",
    "Internal:",
    "  cuke mcp-server                  Start MCP Server"]

/-- The settings file of a new workspace: every setting with its default. -/
def settingsTemplate : String := asLines
  ["# cuke-runner workspace settings",
    "",
    "# Step-definition packages passed to the runner as --glue, in addition to the",
    "# steps package found under src/test/java",
    "glue_paths: []",
    "",
    "# Custom Cucumber ObjectFactory class (--object-factory)",
    "# object_factory: io.cucumber.picocontainer.PicoFactory",
    "",
    "# Directories skipped while discovering and watching .feature files",
    "exclude_dirs: [target, build, out, dist, node_modules, .git]",
    "",
    "# error | warn | info | debug | trace",
    "log_level: info",
    "",
    "# Runner argv prefix; -cp <classpath> is inserted after the first element",
    "runner_command: [java, io.cucumber.core.cli.Main]",
    "classpath: [target/test-classes, target/classes]",
    "",
    "# Where run reports are written, and how long to wait for them (attempts x delay)",
    "report_dir: target",
    "report_attempts: 20",
    "report_delay: 0.5",
    "",
    "# Seconds to wait after the last edit before re-parsing a file",
    "debounce: 1.2",
    "",
    "# Runner process timeout in seconds",
    "timeout: 600"]

end FeatureRun.Console
