import SchemaClasses.Project.Readme

/-!
# The files of a project besides its classes

A readme, and a manifest that declares what the generated code depends on.
-/

namespace SchemaClasses

/-- A generated file: its path below the output directory, and its text. -/
structure Artifact where
  path : String
  content : String
  deriving DecidableEq, Repr

namespace Project

def phpManifest : String := Lines.stack [
  "\x7b",
  "  \"require\": \x7b",
  "    \"jms/serializer\": \"^3.23\",",
  "    \"php-amqplib/php-amqplib\": \"^3.5\",",
  "    \"react/event-loop\": \"^1.3\",",
  "    \"reactivex/rxphp\": \"^2.0\"",
  "  \x7d,",
  "  \"autoload\": \x7b",
  "    \"classmap\": [",
  "      \"" ++ Language.php.sourceDirectory ++ "/\"",
  "    ]",
  "  \x7d",
  "\x7d",
  ""]

/-- The manifest of a project in C#. -/
def csharpManifest (rootNamespace : String) : String := Lines.stack [
  "<Project Sdk=\"Microsoft.NET.Sdk\">",
  "",
  "  <PropertyGroup>",
  "    <TargetFramework>net8.0</TargetFramework>",
  "    <RootNamespace>" ++ rootNamespace ++ "</RootNamespace>",
  "    <Nullable>disable</Nullable>",
  "  </PropertyGroup>",
  "",
  "  <ItemGroup>",
  "    <PackageReference Include=\"JsonSubTypes\" Version=\"2.0.1\" />",
  "    <PackageReference Include=\"Newtonsoft.Json\" Version=\"13.0.3\" />",
  "    <PackageReference Include=\"RabbitMQ.Client\" Version=\"6.8.1\" />",
  "  </ItemGroup>",
  "",
  "</Project>",
  ""]

def manifest (language : Language) (p : ProjectSummary) : String :=
  match language with
  | .php => phpManifest
  | .csharp => csharpManifest p.modelsNamespace

def files (doc : Document) (model : ClassModel) (language : Language) (settings : Settings) :
    Except Failure (List Artifact) := do
  let p ← ProjectSummary.make doc model language settings
  let readme ← Readme.text language p
  return [⟨"README.md", readme⟩, ⟨language.manifestFile, manifest language p⟩]

end Project

end SchemaClasses
