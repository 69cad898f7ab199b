import Scaffold.Dart.ClassFile

/-!
# The screen

A screen that shows the loading, error and success states of the bloc. It does not depend on the
endpoints.
-/

namespace Scaffold

/-- The imports of the screen. -/
def screenImports (feature : Feature) : List Text :=
  ["package:flutter/material.dart", "package:flutter_bloc/flutter_bloc.dart",
    "package:" ++ feature.project ++ "/di/di_container.dart", feature.errorImport,
    feature.blocImport]

/-- The screen, which provides the bloc to its view. -/
def screenClass (feature : Feature) : Text :=
  let screen := feature.screenClass
  Text.lines [
    "class " ++ screen ++ " extends StatelessWidget \x7b",
    "  const " ++ screen ++ "(\x7bsuper.key\x7d);",
    [],
    "  @override",
    "  Widget build(BuildContext context) \x7b",
    "    return BlocProvider(",
    "      create: (context) => getIt<" ++ feature.blocClass ++ ">(),",
    "      child: const _" ++ screen ++ "View(),",
    "    );",
    "  \x7d",
    "\x7d",
    []]

/-- What the view shows while the bloc is loading. -/
def screenLoading : Text :=
  Text.lines [
    "          if (state.isLoading) \x7b",
    "            return const Center(",
    "              child: CircularProgressIndicator(),",
    "            );",
    "          \x7d"]

/-- What the view shows after an error. -/
def screenError : Text :=
  Text.lines [
    [],
    "          if (state.error != const Error.none()) \x7b",
    "            return Center(",
    "              child: Column(",
    "                mainAxisAlignment: MainAxisAlignment.center,",
    "                children: [",
    "                  const Icon(Icons.error_outline, size: 64, color: Colors.red),",
    "                  const SizedBox(height: 16),",
    "                  Text(",
    "                    'Error: $\x7bstate.error\x7d',",
    "                    style: Theme.of(context).textTheme.bodyLarge,",
    "                    textAlign: TextAlign.center,",
    "                  ),",
    "                ],",
    "              ),",
    "            );",
    "          \x7d"]

/-- What the view shows otherwise. -/
def screenSuccess (title : Text) : Text :=
  Text.lines [
    [],
    "          return const Center(",
    "            child: Text(",
    "              '" ++ title ++ " Screen',",
    "              style: TextStyle(fontSize: 24, fontWeight: FontWeight.bold),",
    "            ),",
    "          );"]

/-- The view of the screen. -/
def screenView (feature : Feature) : Text :=
  let screen := feature.screenClass
  let title := feature.name.title
  Text.lines [
    "class _" ++ screen ++ "View extends StatelessWidget \x7b",
    "  const _" ++ screen ++ "View();",
    [],
    "  @override",
    "  Widget build(BuildContext context) \x7b",
    "    return Scaffold(",
    "      appBar: AppBar(",
    "        title: const Text('" ++ title ++ "'),",
    "      ),",
    "      body: BlocBuilder<" ++ feature.blocClass ++ ", " ++ feature.stateClass ++ ">(",
    "        builder: (context, state) \x7b"] ++
    screenLoading ++ screenError ++ screenSuccess title ++ Text.lines [
    "        \x7d,",
    "      ),",
    "    );",
    "  \x7d",
    "\x7d"]

/-- The file of the screen. -/
def renderScreen (feature : Feature) : Text :=
  renderImports (screenImports feature) ++ "\n\n" ++ screenClass feature ++ screenView feature

end Scaffold
